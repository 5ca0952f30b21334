import Stoppage.Lib.Decimal
import Stoppage.Lib.Delimited
import Stoppage.Lib.Hex
import Stoppage.Sdk.ParseMarket
import Stoppage.Chain.Execution
import Stoppage.Programs.MarketSpec

/-! # `packages/sdk`: attested prices

A quote is signed, stored by `attest_pricing` and read back out of the receipt. The scaling of
probabilities is taken over the rationals. `ts` is an integer here: `BigInt` refuses any other
number, so no instruction is built for it. Base58 and the signature scheme are parameters.
-/

namespace Stoppage.Escrow
open LittleEndian Fallible Sdk
set_option autoImplicit false

/-! ## The message -/

/-- Fields that the agent signs over when attesting a price. -/
structure QuoteSignaturePayload where
  market : JsString
  snapshotHash : JsString
  modelVersion : JsString
  fairValue : ℚ
  bid : ℚ
  ask : ℚ
  ts : ℤ

/-- `Math.round` -/
def mathRound (x : ℚ) : ℤ := ⌊x + 1 / 2⌋

/-- The numbers of a quote, as they stand at the end of the message. -/
def numbersText (fairValue bid ask ts : ℤ) : List Char :=
  Decimal.ofInt fairValue ++ (":bid:".toList ++ (Decimal.ofInt bid ++ (":ask:".toList ++
    (Decimal.ofInt ask ++ (":ts:".toList ++ Decimal.ofInt ts)))))

def messageText (payload : QuoteSignaturePayload) : JsString :=
  let fairValueBps := mathRound (payload.fairValue * 1000000)
  let bidBps := mathRound (payload.bid * 1000000)
  let askBps := mathRound (payload.ask * 1000000)
  Utf16.ofString "market:" ++ (payload.market ++ (Utf16.ofString ":snapshotHash:" ++
    (payload.snapshotHash ++ (Utf16.ofString ":modelVersion:" ++ (payload.modelVersion ++
      (Utf16.ofString ":fairValue:" ++
        Utf16.ofChars (numbersText fairValueBps bidBps askBps payload.ts)))))))

def buildQuoteSignatureMessage (payload : QuoteSignaturePayload) : Bytes :=
  Utf16.encode (messageText payload)

/-- The calls of `nacl.sign`. -/
structure Nacl where
  detached : Bytes → Bytes → List.Vector UInt8 64
  verify : Bytes → Bytes → Bytes → Bool

/-- Sign a pricing quote with an Ed25519 secret key. -/
def signQuote (nacl : Nacl) (secretKey : Bytes) (payload : QuoteSignaturePayload) :
    List.Vector UInt8 64 :=
  nacl.detached (buildQuoteSignatureMessage payload) secretKey

/-- Verify a pricing quote signature against an Ed25519 public key. -/
def verifyQuoteSignature (nacl : Nacl) (publicKey signature : Bytes)
    (payload : QuoteSignaturePayload) : Bool :=
  nacl.verify (buildQuoteSignatureMessage payload) signature publicKey

/-! ## The instruction -/

/-- Scale a probability to the on-chain representation. The text of the error goes on with the value
and a hint. -/
def scaleProbability (p : ℚ) : Except SdkError ℤ := do
  require (¬ (1000001 / 1000000 < p ∨ p < -1 / 1000000))
    (.error "buildAttestPricingIx expects probabilities in [0,1]")
  pure (mathRound (min (max p 0) 1 * 1000000))

structure AttestPricingParams where
  agentAuthority : Pubkey
  market : Pubkey
  snapshotHash : Bytes
  modelVersion : JsString
  fairValue : ℚ
  bid : ℚ
  ask : ℚ
  agentSignature : Bytes
  ts : ℤ

def buildAttestPricingIx (params : AttestPricingParams) :
    Except SdkError TransactionInstruction := do
  let versionBuf := Utf16.encode params.modelVersion
  let versionLength ← writeUInt32LE versionBuf.length
  let fairValue ← scaleProbability params.fairValue
  let bid ← scaleProbability params.bid
  let ask ← scaleProbability params.ask
  pure
    { programId := marketProgramId
      keys :=
        [⟨.external params.agentAuthority, true, true⟩, ⟨.agentAuthority, false, false⟩,
          ⟨.market params.market, false, false⟩, ⟨.pricingReceipt params.market, false, true⟩,
          ⟨.external systemProgramId, false, false⟩]
      data := [23, 229, 37, 222, 205, 245, 88, 3] ++ (params.snapshotHash ++
        ((versionLength ++ versionBuf) ++ (writeU64LE fairValue ++ (writeU64LE bid ++
          (writeU64LE ask ++ (params.agentSignature ++ writeI64LE params.ts)))))) }

def buildVerifyPricingIx (market : Pubkey) (snapshotBytes : Bytes) :
    Except SdkError TransactionInstruction := do
  let len ← writeUInt32LE snapshotBytes.length
  pure
    { programId := marketProgramId
      keys := [⟨.pricingReceipt market, false, false⟩]
      data := [148, 208, 151, 250, 30, 144, 142, 74] ++ (len ++ snapshotBytes) }

theorem buildVerifyPricingIx_ok {market : Pubkey} {snapshotBytes : Bytes}
    {ix : TransactionInstruction} (h : buildVerifyPricingIx market snapshotBytes = .ok ix) :
    MarketProgram.verifyPricingEntry ix = some (.verifyPricing market snapshotBytes) := by
  simp only [buildVerifyPricingIx, bind_eq_ok, pure_eq_ok, writeUInt32LE_natCast] at h
  obtain ⟨_, ⟨hlength, rfl⟩, rfl⟩ := h
  exact MarketProgram.verifyPricingEntry_data marketProgramId market hlength

/-! ## The receipt -/

/-- The type `PricingReceipt` of the SDK. -/
structure PricingReceipt where
  market : JsString
  snapshotHash : JsString
  modelVersion : JsString
  fairValue : ℚ
  bid : ℚ
  ask : ℚ
  agentSignature : JsString
  ts : ℤ

/-- The fields that are read behind the discriminator. -/
structure RawReceipt where
  market : Pubkey
  snapshotHash : List.Vector UInt8 32
  modelVersion : Bytes
  fairValue : UInt64
  bid : UInt64
  ask : UInt64
  agentSignature : List.Vector UInt8 64
  ts : Int64

def RawReceipt.read : Borsh.Reader RawReceipt := do
  let market ← Pubkey.read
  let snapshotHash ← Borsh.array 32
  let modelVersion ← Borsh.vec
  let fairValue ← Borsh.u64
  let bid ← Borsh.u64
  let ask ← Borsh.u64
  let agentSignature ← Borsh.array 64
  let ts ← Borsh.i64
  pure { market, snapshotHash, modelVersion, fairValue, bid, ask, agentSignature, ts }

/-- `buf.toString("hex")` -/
def hexText (bs : Bytes) : JsString := Utf16.ofChars (Hex.encode bs)

/-- `Buffer.from(s, "hex")` -/
def hexBytes (s : JsString) : Bytes := Hex.decode (Utf16.toChars s)

/-- `Number(readU64LE(accountData, offset)) / 1_000_000` -/
def unscaled (x : UInt64) : ℚ := numberOfU64 x / 1000000

def parsePricingReceipt (base58 : Pubkey → JsString) (accountData : Bytes) :
    Except SdkError PricingReceipt := do
  let raw ← getOr .rangeError (Borsh.run RawReceipt.read (accountData.drop 8))
  pure
    { market := base58 raw.market
      snapshotHash := hexText raw.snapshotHash.1
      modelVersion := Utf16.decode raw.modelVersion
      fairValue := unscaled raw.fairValue
      bid := unscaled raw.bid
      ask := unscaled raw.ask
      agentSignature := hexText raw.agentSignature.1
      ts := numberOfI64 raw.ts }

def PricingReceipt.payload (r : PricingReceipt) : QuoteSignaturePayload where
  market := r.market
  snapshotHash := r.snapshotHash
  modelVersion := r.modelVersion
  fairValue := r.fairValue
  bid := r.bid
  ask := r.ask
  ts := r.ts

/-! ## Scaling -/

theorem scaleProbability_eq_ok {p : ℚ} {n : ℤ} : scaleProbability p = .ok n ↔
    (-1 / 1000000 ≤ p ∧ p ≤ 1000001 / 1000000) ∧ n = mathRound (min (max p 0) 1 * 1000000) := by
  simp only [scaleProbability, bind_eq_ok, require_eq_ok, pure_eq_ok, not_or, not_lt]
  constructor
  · rintro ⟨_, ⟨hhigh, hlow⟩, rfl⟩
    exact ⟨⟨hlow, hhigh⟩, rfl⟩
  · rintro ⟨⟨hlow, hhigh⟩, rfl⟩
    exact ⟨(), ⟨hhigh, hlow⟩, rfl⟩

theorem mathRound_eq_iff {x : ℚ} {n : ℤ} :
    mathRound x = n ↔ (n : ℚ) - 1 / 2 ≤ x ∧ x < n + 1 / 2 := by
  rw [mathRound, Int.floor_eq_iff]
  constructor
  · rintro ⟨hlow, hhigh⟩
    constructor <;> linarith
  · rintro ⟨hlow, hhigh⟩
    constructor <;> linarith

theorem mathRound_mono {x y : ℚ} (h : x ≤ y) : mathRound x ≤ mathRound y :=
  Int.floor_le_floor (by linarith)

theorem mathRound_intCast (n : ℤ) : mathRound n = n :=
  mathRound_eq_iff.mpr ⟨by linarith, by linarith⟩

theorem scaled_range (p : ℚ) : 0 ≤ mathRound (min (max p 0) 1 * 1000000) ∧
    mathRound (min (max p 0) 1 * 1000000) ≤ 1000000 := by
  have hlow : (0 : ℚ) ≤ min (max p 0) 1 := le_min (le_max_right p 0) zero_le_one
  have hhigh : min (max p 0) 1 ≤ 1 := min_le_right _ _
  have hzero := mathRound_mono (x := ((0 : ℤ) : ℚ)) (y := min (max p 0) 1 * 1000000) (by
    push_cast
    linarith)
  have hmillion := mathRound_mono (x := min (max p 0) 1 * 1000000) (y := ((1000000 : ℤ) : ℚ)) (by
    push_cast
    linarith)
  rw [mathRound_intCast] at hzero hmillion
  exact ⟨hzero, hmillion⟩

/-- The probabilities that are signed as they are stored. -/
def SameScaled (p : ℚ) : Prop := -1 / 2000000 ≤ p ∧ p < 2000001 / 2000000

instance (p : ℚ) : Decidable (SameScaled p) := inferInstanceAs (Decidable (_ ∧ _))

/-- The two ways of scaling agree where clamping does not change the rounded value. -/
theorem sameScaled_iff (p : ℚ) :
    mathRound (p * 1000000) = mathRound (min (max p 0) 1 * 1000000) ↔ SameScaled p := by
  rw [SameScaled]
  rcases lt_or_ge p 0 with hneg | hpos
  · have hclamp : min (max p 0) 1 * 1000000 = ((0 : ℤ) : ℚ) := by
      rw [max_eq_right hneg.le, min_eq_left zero_le_one, Int.cast_zero, zero_mul]
    rw [hclamp, mathRound_intCast, mathRound_eq_iff, Int.cast_zero]
    constructor
    · rintro ⟨hlow, -⟩
      constructor <;> linarith
    · rintro ⟨hlow, -⟩
      constructor <;> linarith
  · rcases le_or_gt p 1 with hle | hgt
    · rw [max_eq_left hpos, min_eq_left hle]
      exact iff_of_true rfl ⟨by linarith, by linarith⟩
    · have hclamp : min (max p 0) 1 * 1000000 = ((1000000 : ℤ) : ℚ) := by
        rw [max_eq_left hpos, min_eq_right hgt.le, one_mul, Int.cast_ofNat]
      rw [hclamp, mathRound_intCast, mathRound_eq_iff, Int.cast_ofNat]
      constructor
      · rintro ⟨-, hhigh⟩
        constructor <;> linarith
      · rintro ⟨-, hhigh⟩
        constructor <;> linarith

theorem mathRound_unscaled {x : UInt64} (h : x.toNat < 2 ^ 53) :
    mathRound (unscaled x * 1000000) = x.toNat := by
  have hexact : unscaled x * 1000000 = ((x.toNat : ℤ) : ℚ) := by
    rw [unscaled, numberOfU64, Double.ofNat_of_lt h, Int.cast_natCast]
    exact div_mul_cancel₀ _ (by norm_num)
  rw [hexact, mathRound_intCast]

/-! ## Messages -/

/-- The numbers can be read off the end of a message. -/
theorem numbersText_inj {a b c a' b' c' ts : ℤ}
    (h : numbersText a b c ts = numbersText a' b' c' ts) :
    Decimal.ofInt a = Decimal.ofInt a' ∧ Decimal.ofInt b = Decimal.ofInt b' ∧
      Decimal.ofInt c = Decimal.ofInt c' := by
  have houtside : ∀ (label : String) (cs : List Char), label.toList.head? = some ':' →
      Delimited.Outside Decimal.NumberChar (label.toList ++ cs) := by
    intro label cs hhead c hc
    rw [List.head?_append, hhead] at hc
    rw [← Option.some.inj hc]
    exact fun hcolon => hcolon.ascii.2.1 rfl
  obtain ⟨ha, hrest⟩ := Delimited.append_inj Decimal.numberChar_of_mem_ofInt
    Decimal.numberChar_of_mem_ofInt (houtside _ _ (by decide)) (houtside _ _ (by decide)) h
  obtain ⟨hb, hrest⟩ := Delimited.append_inj Decimal.numberChar_of_mem_ofInt
    Decimal.numberChar_of_mem_ofInt (houtside _ _ (by decide)) (houtside _ _ (by decide))
    (List.append_cancel_left hrest)
  obtain ⟨hc, -⟩ := Delimited.append_inj Decimal.numberChar_of_mem_ofInt
    Decimal.numberChar_of_mem_ofInt (houtside _ _ (by decide)) (houtside _ _ (by decide))
    (List.append_cancel_left hrest)
  exact ⟨ha, hb, hc⟩

def messageFront (payload : QuoteSignaturePayload) : Bytes :=
  Utf8.encode "market:".toList ++ (Utf16.encode payload.market ++
    (Utf8.encode ":snapshotHash:".toList ++ (Utf16.encode payload.snapshotHash ++
      (Utf8.encode ":modelVersion:".toList ++ (Utf16.encode payload.modelVersion ++
        Utf8.encode ":fairValue:".toList)))))

theorem not_low_head (cs : List Char) (t : JsString) (hne : cs ≠ [])
    (h : cs.all (fun c => c.toNat < 0x80) = true) :
    ∀ u ∈ (Utf16.ofChars cs ++ t).head?, ¬ Utf16.isLow u := by
  match cs with
  | [] => exact absurd rfl hne
  | c :: cs =>
    have hsmall : c.toNat < 0x80 := of_decide_eq_true (List.all_eq_true.mp h c List.mem_cons_self)
    have hunits : Utf16.units c = [UInt16.ofNat c.toNat] := if_pos (by omega)
    intro u hu
    have hhead : (Utf16.ofChars (c :: cs) ++ t).head? = some (UInt16.ofNat c.toNat) := by
      show ((Utf16.units c ++ Utf16.ofChars cs) ++ t).head? = _
      rw [hunits]
      rfl
    rw [hhead] at hu
    rw [← Option.some.inj hu, Utf16.isLow, Utf16.toNat_ofNat (by omega)]
    omega

theorem buildQuoteSignatureMessage_eq (payload : QuoteSignaturePayload) :
    buildQuoteSignatureMessage payload = messageFront payload ++
      Utf8.encode (numbersText (mathRound (payload.fairValue * 1000000))
        (mathRound (payload.bid * 1000000)) (mathRound (payload.ask * 1000000)) payload.ts) := by
  have hhash := not_low_head ":snapshotHash:".toList (payload.snapshotHash ++
    (Utf16.ofString ":modelVersion:" ++ (payload.modelVersion ++ (Utf16.ofString ":fairValue:" ++
      Utf16.ofChars (numbersText (mathRound (payload.fairValue * 1000000))
        (mathRound (payload.bid * 1000000)) (mathRound (payload.ask * 1000000)) payload.ts)))))
    (by decide) (by decide)
  have hversion := not_low_head ":modelVersion:".toList (payload.modelVersion ++
    (Utf16.ofString ":fairValue:" ++ Utf16.ofChars (numbersText
      (mathRound (payload.fairValue * 1000000)) (mathRound (payload.bid * 1000000))
      (mathRound (payload.ask * 1000000)) payload.ts))) (by decide) (by decide)
  have hfair := not_low_head ":fairValue:".toList (Utf16.ofChars (numbersText
    (mathRound (payload.fairValue * 1000000)) (mathRound (payload.bid * 1000000))
    (mathRound (payload.ask * 1000000)) payload.ts)) (by decide) (by decide)
  simp only [Utf16.ofString] at hhash hversion hfair
  simp only [buildQuoteSignatureMessage, messageText, messageFront, Utf16.ofString,
    Utf16.encode_ofChars_append, Utf16.encode_append _ hhash, Utf16.encode_append _ hversion,
    Utf16.encode_append _ hfair, Utf16.encode_ofChars, List.append_assoc]

/-- **Which messages agree**, when all but the probabilities of a quote does. -/
theorem message_eq_iff {p q : QuoteSignaturePayload} (hmarket : p.market = q.market)
    (hhash : p.snapshotHash = q.snapshotHash)
    (hversion : Utf16.encode p.modelVersion = Utf16.encode q.modelVersion) (hts : p.ts = q.ts) :
    buildQuoteSignatureMessage p = buildQuoteSignatureMessage q ↔
      Decimal.ofInt (mathRound (p.fairValue * 1000000)) =
          Decimal.ofInt (mathRound (q.fairValue * 1000000)) ∧
        Decimal.ofInt (mathRound (p.bid * 1000000)) =
          Decimal.ofInt (mathRound (q.bid * 1000000)) ∧
        Decimal.ofInt (mathRound (p.ask * 1000000)) =
          Decimal.ofInt (mathRound (q.ask * 1000000)) := by
  have hfront : messageFront p = messageFront q := by
    rw [messageFront, messageFront, hmarket, hhash, hversion]
  rw [buildQuoteSignatureMessage_eq, buildQuoteSignatureMessage_eq, hfront, hts,
    List.append_right_inj, Utf8.encode_injective.eq_iff]
  constructor
  · exact numbersText_inj
  · rintro ⟨hfair, hbid, hask⟩
    rw [numbersText, hfair, hbid, hask, numbersText]

/-! ## From the quote to the receipt -/

structure Quote where
  market : Pubkey
  snapshotHash : List.Vector UInt8 32
  modelVersion : JsString
  fairValue : ℚ
  bid : ℚ
  ask : ℚ
  ts : ℤ

def Quote.payload (base58 : Pubkey → JsString) (q : Quote) : QuoteSignaturePayload where
  market := base58 q.market
  snapshotHash := hexText q.snapshotHash.1
  modelVersion := q.modelVersion
  fairValue := q.fairValue
  bid := q.bid
  ask := q.ask
  ts := q.ts

def Quote.params (q : Quote) (agentAuthority : Pubkey) (agentSignature : List.Vector UInt8 64) :
    AttestPricingParams where
  agentAuthority := agentAuthority
  market := q.market
  snapshotHash := q.snapshotHash.1
  modelVersion := q.modelVersion
  fairValue := q.fairValue
  bid := q.bid
  ask := q.ask
  agentSignature := agentSignature.1
  ts := q.ts

theorem utf8_ofList (cs : List Char) : utf8 (String.ofList cs) = Utf8.encode cs := by
  rw [utf8, String.toList_ofList, Utf8.encode]

theorem buildAttestPricingIx_ok {q : Quote} {agentAuthority : Pubkey}
    {agentSignature : List.Vector UInt8 64} {ix : TransactionInstruction}
    (h : buildAttestPricingIx (q.params agentAuthority agentSignature) = .ok ix) :
    ∃ fairValue bid ask, scaleProbability q.fairValue = .ok fairValue ∧
      scaleProbability q.bid = .ok bid ∧ scaleProbability q.ask = .ok ask ∧
      MarketProgram.attestPricingEntry ix = some (.attestPricing agentAuthority q.market
        q.snapshotHash (String.ofList (Utf16.toChars q.modelVersion)) (UInt64.ofInt fairValue)
        (UInt64.ofInt bid) (UInt64.ofInt ask) agentSignature (Int64.ofInt q.ts)) := by
  simp only [buildAttestPricingIx, Quote.params, bind_eq_ok, pure_eq_ok,
    writeUInt32LE_natCast] at h
  obtain ⟨_, ⟨hlength, rfl⟩, fairValue, hfair, bid, hbid, ask, hask, rfl⟩ := h
  refine ⟨fairValue, bid, ask, hfair, hbid, hask, ?_⟩
  have hversion : utf8 (String.ofList (Utf16.toChars q.modelVersion)) =
      Utf16.encode q.modelVersion := utf8_ofList _
  rw [writeU64LE_eq, writeU64LE_eq, writeU64LE_eq, writeI64LE_eq, ← hversion]
  rw [← hversion] at hlength
  exact MarketProgram.attestPricingEntry_data marketProgramId agentAuthority q.market
    (a := ⟨q.snapshotHash, String.ofList (Utf16.toChars q.modelVersion), UInt64.ofInt fairValue,
      UInt64.ofInt bid, UInt64.ofInt ask, agentSignature, Int64.ofInt q.ts⟩) hlength

/-- What is parsed of a receipt of the program. -/
def receiptView (base58 : Pubkey → JsString) (r : Stoppage.PricingReceipt) : PricingReceipt where
  market := base58 r.market
  snapshotHash := hexText r.snapshotHash.1
  modelVersion := Utf16.decode (utf8 r.modelVersion)
  fairValue := unscaled r.fairValue
  bid := unscaled r.bid
  ask := unscaled r.ask
  agentSignature := hexText r.agentSignature.1
  ts := numberOfI64 r.ts

theorem parsePricingReceipt_data (base58 : Pubkey → JsString) {r : Stoppage.PricingReceipt}
    (hversion : (utf8 r.modelVersion).length < 2 ^ 32) (rest : Bytes) :
    parsePricingReceipt base58 (r.data ++ rest) = .ok (receiptView base58 r) := by
  have hreads : Borsh.Reads RawReceipt.read (r.market.bytes ++ (r.snapshotHash.1 ++
      ((encode 4 (utf8 r.modelVersion).length ++ utf8 r.modelVersion) ++ (encodeU64 r.fairValue ++
        (encodeU64 r.bid ++ (encodeU64 r.ask ++ (r.agentSignature.1 ++ encodeI64 r.ts)))))))
      ⟨r.market, r.snapshotHash, utf8 r.modelVersion, r.fairValue, r.bid, r.ask, r.agentSignature,
        r.ts⟩ := by
    refine (Pubkey.reads r.market).bind ?_
    refine (Borsh.reads_array r.snapshotHash).bind ?_
    refine (Borsh.reads_vec hversion).bind ?_
    refine (Borsh.reads_u64 r.fairValue).bind ?_
    refine (Borsh.reads_u64 r.bid).bind ?_
    refine (Borsh.reads_u64 r.ask).bind ?_
    refine (Borsh.reads_array r.agentSignature).bind ?_
    exact (Borsh.reads_i64 r.ts).map fun ts => (⟨r.market, r.snapshotHash, utf8 r.modelVersion,
      r.fairValue, r.bid, r.ask, r.agentSignature, ts⟩ : RawReceipt)
  have hrun := hreads.run_append ([r.bump] ++ rest)
  have hdrop : (r.data ++ rest).drop 8 = (r.market.bytes ++ (r.snapshotHash.1 ++
      ((encode 4 (utf8 r.modelVersion).length ++ utf8 r.modelVersion) ++ (encodeU64 r.fairValue ++
        (encodeU64 r.bid ++ (encodeU64 r.ask ++ (r.agentSignature.1 ++ encodeI64 r.ts)))))))
      ++ ([r.bump] ++ rest) := by
    have hdiscriminator : ∀ bs : Bytes, (PricingReceipt.discriminator ++ bs).drop 8 = bs :=
      fun _ => rfl
    rw [PricingReceipt.data, List.append_assoc, hdiscriminator]
    simp only [List.append_assoc]
  rw [parsePricingReceipt, hdrop, hrun, getOr_some, ok_bind]
  rfl

theorem hexBytes_hexText (bs : Bytes) : hexBytes (hexText bs) = bs := by
  rw [hexBytes, hexText, Utf16.toChars_ofChars, Hex.decode_encode]

/-- A stored probability is signed alike exactly when both ways of scaling agree on it. -/
theorem scaled_text_iff {p : ℚ} {n : ℤ} (h : scaleProbability p = .ok n) :
    Decimal.ofInt (mathRound (unscaled (UInt64.ofInt n) * 1000000)) =
      Decimal.ofInt (mathRound (p * 1000000)) ↔ SameScaled p := by
  obtain ⟨⟨hlow, hhigh⟩, rfl⟩ := scaleProbability_eq_ok.mp h
  obtain ⟨hnonneg, hmillion⟩ := scaled_range p
  have hword := toNat_ofInt (mathRound (min (max p 0) 1 * 1000000))
  have hstored : mathRound (unscaled (UInt64.ofInt (mathRound (min (max p 0) 1 * 1000000))) *
      1000000) = mathRound (min (max p 0) 1 * 1000000) := by
    rw [mathRound_unscaled (by omega)]
    omega
  have hbelow := mathRound_mono (x := ((-1 : ℤ) : ℚ)) (y := p * 1000000) (by
    push_cast
    linarith)
  have habove := mathRound_mono (x := p * 1000000) (y := ((1000001 : ℤ) : ℚ)) (by
    push_cast
    linarith)
  rw [mathRound_intCast] at hbelow habove
  rw [hstored, ← sameScaled_iff]
  constructor
  · exact fun htext => (Decimal.ofInt_injOn (by omega) (by omega) htext).symm
  · intro hsame
    rw [hsame]

def storedReceipt (rt : Runtime) (q : Quote) (fairValue bid ask : ℤ)
    (agentSignature : List.Vector UInt8 64) : Stoppage.PricingReceipt :=
  MarketProgram.newReceipt rt q.market q.snapshotHash
    (String.ofList (Utf16.toChars q.modelVersion)) (UInt64.ofInt fairValue) (UInt64.ofInt bid)
    (UInt64.ofInt ask) agentSignature (Int64.ofInt q.ts)

theorem exists_stored {rt : Runtime} {ctx : TxContext} {s t : Chain} {q : Quote} {agent : Pubkey}
    {agentSignature : List.Vector UInt8 64} {ix : TransactionInstruction} {instruction : Instruction}
    (hix : buildAttestPricingIx (q.params agent agentSignature) = .ok ix)
    (hentry : MarketProgram.attestPricingEntry ix = some instruction)
    (hexec : exec rt ctx instruction s = .ok t) :
    ∃ fairValue bid ask, scaleProbability q.fairValue = .ok fairValue ∧
      scaleProbability q.bid = .ok bid ∧ scaleProbability q.ask = .ok ask ∧
      (String.ofList (Utf16.toChars q.modelVersion)).utf8ByteSize ≤ maxModelVersionLen ∧
      t.pricingReceipt q.market = some (storedReceipt rt q fairValue bid ask agentSignature) := by
  obtain ⟨fairValue, bid, ask, hfair, hbid, hask, hread⟩ := buildAttestPricingIx_ok hix
  obtain rfl := Option.some.inj (hread.symm.trans hentry)
  obtain ⟨l, e, hlength, -, -, rfl⟩ := MarketProgram.attestPricing_ok hexec
  exact ⟨fairValue, bid, ask, hfair, hbid, hask, hlength, Function.update_self _ _ _⟩

theorem parse_storedReceipt (base58 : Pubkey → JsString) {rt : Runtime} {q : Quote}
    {fairValue bid ask : ℤ} {agentSignature : List.Vector UInt8 64}
    (hlength : (String.ofList (Utf16.toChars q.modelVersion)).utf8ByteSize ≤ maxModelVersionLen)
    (rest : Bytes) :
    parsePricingReceipt base58 ((storedReceipt rt q fairValue bid ask agentSignature).data ++ rest) =
      .ok (receiptView base58 (storedReceipt rt q fairValue bid ask agentSignature)) := by
  refine parsePricingReceipt_data base58 ?_ rest
  have hlt : (String.ofList (Utf16.toChars q.modelVersion)).utf8ByteSize < 2 ^ 32 :=
    hlength.trans_lt (by decide)
  rwa [← length_utf8] at hlt

/-- **When the stored fields give the message that was signed.** -/
theorem message_stored_iff {base58 : Pubkey → JsString} {rt : Runtime} {q : Quote}
    {fairValue bid ask : ℤ} {agentSignature : List.Vector UInt8 64} (hts : FitsI64 q.ts)
    (hnumber : Double.ofInt q.ts = q.ts) (hfair : scaleProbability q.fairValue = .ok fairValue)
    (hbid : scaleProbability q.bid = .ok bid) (hask : scaleProbability q.ask = .ok ask) :
    buildQuoteSignatureMessage
        (receiptView base58 (storedReceipt rt q fairValue bid ask agentSignature)).payload =
      buildQuoteSignatureMessage (q.payload base58) ↔
      SameScaled q.fairValue ∧ SameScaled q.bid ∧ SameScaled q.ask := by
  have hseconds : numberOfI64 (Int64.ofInt q.ts) = q.ts := by
    rw [numberOfI64, Int64.toInt_ofInt_of_le hts.1 hts.2, hnumber]
  have hversion : Utf16.encode (Utf16.decode (utf8 (String.ofList
      (Utf16.toChars q.modelVersion)))) = Utf16.encode q.modelVersion := by
    rw [utf8_ofList]
    exact Utf16.encode_decode_encode q.modelVersion
  refine (message_eq_iff ?_ ?_ ?_ ?_).trans ?_
  · rfl
  · rfl
  · exact hversion
  · exact hseconds
  · exact and_congr (scaled_text_iff hfair) (and_congr (scaled_text_iff hbid)
      (scaled_text_iff hask))

/-- **Sign, store and verify.** The receipt of a quote verifies exactly when each probability is
scaled alike by the signed message and by the instruction. -/
theorem sign_store_verify_iff {rt : Runtime} {ctx : TxContext} {s t : Chain} {nacl : Nacl}
    {base58 : Pubkey → JsString} {secretKey publicKey : Bytes} {agent : Pubkey} {q : Quote}
    {ix : TransactionInstruction} {instruction : Instruction} (hts : FitsI64 q.ts)
    (hnumber : Double.ofInt q.ts = q.ts)
    (hix : buildAttestPricingIx (q.params agent (signQuote nacl secretKey (q.payload base58))) =
      .ok ix)
    (hentry : MarketProgram.attestPricingEntry ix = some instruction)
    (hexec : exec rt ctx instruction s = .ok t)
    (hverify : ∀ message,
      nacl.verify message (signQuote nacl secretKey (q.payload base58)).1 publicKey = true ↔
        message = buildQuoteSignatureMessage (q.payload base58)) :
    ∃ r, t.pricingReceipt q.market = some r ∧
      ∀ rest, ∃ view, parsePricingReceipt base58 (r.data ++ rest) = .ok view ∧
        (verifyQuoteSignature nacl publicKey (hexBytes view.agentSignature) view.payload = true ↔
          SameScaled q.fairValue ∧ SameScaled q.bid ∧ SameScaled q.ask) := by
  obtain ⟨fairValue, bid, ask, hfair, hbid, hask, hlength, hstored⟩ :=
    exists_stored hix hentry hexec
  refine ⟨_, hstored, fun rest => ⟨_, parse_storedReceipt base58 hlength rest, ?_⟩⟩
  have hsignature : hexBytes (receiptView base58 (storedReceipt rt q fairValue bid ask
      (signQuote nacl secretKey (q.payload base58)))).agentSignature =
        (signQuote nacl secretKey (q.payload base58)).1 := hexBytes_hexText _
  rw [verifyQuoteSignature, hsignature, hverify]
  exact message_stored_iff hts hnumber hfair hbid hask

namespace Sample
open Stoppage.Sample TransitionSystem

/-- The digits of a key in base 58; a zero byte at its front is a digit of its own. -/
def base58 (k : Pubkey) : JsString :=
  let alphabet := "123456789ABCDEFGHJKLMNPQRSTUVWXYZabcdefghijkmnopqrstuvwxyz".toList
  let number := k.bytes.foldl (fun n b => 256 * n + b.toNat) 0
  Utf16.ofChars ((k.bytes.takeWhile (· = 0)).map (fun _ => '1') ++
    (Nat.digits 58 number).reverse.map fun d => alphabet.getD d '1')

/-- A fair value of 54 with the given bid. -/
def quote (bid : ℚ) : Quote where
  market := market
  snapshotHash := List.Vector.replicate 32 7
  modelVersion := Utf16.ofString "stoppage-quant-v1"
  fairValue := 27 / 50
  bid := bid
  ask := 14 / 25
  ts := 1700000100

theorem fits_quote (bid : ℚ) : FitsI64 (quote bid).ts := by
  show FitsI64 1700000100
  exact ⟨by norm_num, by norm_num⟩

def signature : List.Vector UInt8 64 := List.Vector.replicate 64 1

/-- A scheme in which one message has been signed. -/
def nacl (message : Bytes) : Nacl where
  detached _ _ := signature
  verify m s _ := decide (m = message ∧ s = signature.1)

theorem verify_nacl (message secretKey publicKey m : Bytes) (payload : QuoteSignaturePayload) :
    (nacl message).verify m (signQuote (nacl message) secretKey payload).1 publicKey = true ↔
      m = message :=
  decide_eq_true_iff.trans (and_iff_left rfl)

/-- The instruction that arrives for a quote. -/
def attestation (agent : Pubkey) (q : Quote) (agentSignature : List.Vector UInt8 64) :
    Except SdkError Instruction := do
  let ix ← buildAttestPricingIx (q.params agent agentSignature)
  getOr .rangeError (MarketProgram.attestPricingEntry ix)

/-- Whether the instruction succeeds after the given actions. -/
def succeeds (rt : Runtime) (as : List Action) (s : Chain) : Except SdkError Instruction → Bool
  | .error _ => false
  | .ok instruction => Action.runsTo rt (as ++ [call instruction]) s fun _ => True

theorem exists_of_succeeds {rt : Runtime} {as : List Action} {s : Chain}
    {result : Except SdkError Instruction} (h : succeeds rt as s result = true) :
    ∃ instruction ctx u t, result = .ok instruction ∧ exec rt ctx instruction u = .ok t := by
  cases result with
  | error e => cases h
  | ok instruction =>
    obtain ⟨t, hsteps, -⟩ := steps_of_runsTo h
    obtain ⟨u, -, hlast⟩ := Steps.append_iff.mp hsteps
    exact ⟨instruction, _, u, t, rfl, Steps.single_iff.mp hlast⟩

theorem exists_of_attestation {rt : Runtime} (as : List Action) (s : Chain) {agent : Pubkey}
    {q : Quote} {agentSignature : List.Vector UInt8 64}
    (h : succeeds rt as s (attestation agent q agentSignature) = true) :
    ∃ ix instruction ctx u t, buildAttestPricingIx (q.params agent agentSignature) = .ok ix ∧
      MarketProgram.attestPricingEntry ix = some instruction ∧
      exec rt ctx instruction u = .ok t := by
  obtain ⟨instruction, ctx, u, t, hresult, hexec⟩ := exists_of_succeeds h
  simp only [attestation, bind_eq_ok, getOr_eq_ok] at hresult
  obtain ⟨ix, hix, hentry⟩ := hresult
  exact ⟨ix, instruction, ctx, u, t, hix, hentry, hexec⟩

/-- A quote that is attested in the small world, with the signature of the scheme. -/
theorem exists_attested (bid : ℚ) (message : Bytes)
    (h : succeeds runtime
      [setUp, create 1700001000 echo] genesis (attestation alice (quote bid) signature) = true) :
    ∃ ix instruction ctx s t, buildAttestPricingIx ((quote bid).params alice
        (signQuote (nacl message) [1] ((quote bid).payload base58))) = .ok ix ∧
      MarketProgram.attestPricingEntry ix = some instruction ∧
      exec runtime ctx instruction s = .ok t :=
  exists_of_attestation _ _ h

end Sample

theorem sign_store_verify_iff_sample : ∃ nacl bytes view,
    parsePricingReceipt Sample.base58 bytes = .ok view ∧
    verifyQuoteSignature nacl [2] (hexBytes view.agentSignature) view.payload = true := by
  generalize hmessage : buildQuoteSignatureMessage ((Sample.quote (13 / 25)).payload
    Sample.base58) = message
  obtain ⟨ix, instruction, ctx, s, t, hix, hentry, hexec⟩ :=
    Sample.exists_attested (13 / 25) message (by decide +kernel)
  have hverify : ∀ m, (Sample.nacl message).verify m (signQuote (Sample.nacl message) [1]
      ((Sample.quote (13 / 25)).payload Sample.base58)).1 [2] = true ↔
        m = buildQuoteSignatureMessage ((Sample.quote (13 / 25)).payload Sample.base58) := by
    intro m
    rw [hmessage]
    exact Sample.verify_nacl message [1] [2] m _
  obtain ⟨r, -, hparse⟩ := sign_store_verify_iff (Sample.fits_quote _) (by decide +kernel) hix
    hentry hexec hverify
  obtain ⟨view, hview, hiff⟩ := hparse []
  exact ⟨_, _, view, hview, hiff.mpr (by decide +kernel)⟩

/-- A bid a little below nought is signed as `-1` and stored as `0`. -/
theorem small_bid_unverifiable : ¬ ∀ (rt : Runtime) (ctx : TxContext) (s t : Chain) (nacl : Nacl)
    (base58 : Pubkey → JsString) (secretKey publicKey : Bytes) (agent : Pubkey) (q : Quote)
    (ix : TransactionInstruction) (instruction : Instruction) (r : Stoppage.PricingReceipt)
    (view : PricingReceipt), FitsI64 q.ts → Double.ofInt q.ts = q.ts →
    (Utf16.encode q.modelVersion).length ≤ 32 →
    buildAttestPricingIx (q.params agent (signQuote nacl secretKey (q.payload base58))) = .ok ix →
    MarketProgram.attestPricingEntry ix = some instruction → exec rt ctx instruction s = .ok t →
    (∀ message, nacl.verify message (signQuote nacl secretKey (q.payload base58)).1 publicKey =
      true ↔ message = buildQuoteSignatureMessage (q.payload base58)) →
    t.pricingReceipt q.market = some r → parsePricingReceipt base58 (r.data ++ []) = .ok view →
    verifyQuoteSignature nacl publicKey (hexBytes view.agentSignature) view.payload = true := by
  intro hall
  generalize hmessage : buildQuoteSignatureMessage ((Sample.quote (-4 / 5000000)).payload
    Sample.base58) = message
  obtain ⟨ix, instruction, ctx, s, t, hix, hentry, hexec⟩ :=
    Sample.exists_attested (-4 / 5000000) message (by decide +kernel)
  obtain ⟨fairValue, bid, ask, hfair, hbid, hask, hlength, hstored⟩ :=
    exists_stored hix hentry hexec
  have hverify : ∀ m, (Sample.nacl message).verify m (signQuote (Sample.nacl message) [1]
      ((Sample.quote (-4 / 5000000)).payload Sample.base58)).1 [2] = true ↔
        m = buildQuoteSignatureMessage ((Sample.quote (-4 / 5000000)).payload Sample.base58) := by
    intro m
    rw [hmessage]
    exact Sample.verify_nacl message [1] [2] m _
  have haccepted := hall _ _ _ _ (Sample.nacl message) Sample.base58 [1] [2] _
    (Sample.quote (-4 / 5000000)) _ _ _ _ (Sample.fits_quote _) (by decide +kernel)
    (by decide +kernel) hix hentry hexec hverify hstored
    (parse_storedReceipt Sample.base58 hlength [])
  have hsigned := (decide_eq_true_iff.mp haccepted).1
  rw [← hmessage] at hsigned
  have hsame := (message_stored_iff (Sample.fits_quote _) (by decide +kernel) hfair hbid hask).mp hsigned
  exact absurd hsame.2.1 (by decide +kernel)

end Stoppage.Escrow

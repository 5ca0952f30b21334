import Stoppage.Lib.Access
import Stoppage.Oracle.PriceHistory

/-! # Reading a price update

`validate_price` decodes the account of the price receiver by hand, at an offset that depends on
the verification level. `price_update_decoded` says that it reads every posted update back, whatever
follows its bytes, when it answers, and that it never leaves the account's data.
-/

namespace Stoppage
open Fallible LittleEndian Access
set_option autoImplicit false

namespace PythValidator

/-! ## Checked accesses -/

/-- `validate_price` with each access to the account's data where the handler makes it. -/
def validatePriceChecked (owner : Pubkey) (data : Bytes) (a : Args) :
    Except (Fault ProgramError) Bool := do
  require (owner = pythReceiverProgramId) (.error (.pyth .notPythReceiverAccount))
  require (priceUpdateV2MinLen ≤ data.length) (.error (.pyth .malformedUpdate))
  let discriminator ← range data 0 8
  require (discriminator = priceUpdateV2Discriminator) (.error (.pyth .malformedUpdate))
  let variant ← index data (8 + 32)
  require (variant ≤ 1) (.error (.pyth .malformedUpdate))
  let off := 8 + 32 + if variant = 0 then 2 else 1
  let msgFeed ← range data off (off + 32)
  require (msgFeed = a.feedId.1) (.error (.pyth .feedMismatch))
  let price ← range data (off + 32) (off + 40)
  let publishTime ← range data (off + 52) (off + 60)
  let upper ← lift (checkedAddInt (.pyth .overflow) a.referenceTs
    (Int64.ofNat a.maxStalenessSeconds.toNat))
  require (a.referenceTs ≤ decodeI64 publishTime) (.error (.pyth .beforeReference))
  require (decodeI64 publishTime ≤ upper) (.error (.pyth .outsideWindow))
  pure (decide (a.threshold ≤ decodeI64 price))

theorem validatePriceChecked_eq (owner : Pubkey) (data : Bytes) (a : Args) :
    validatePriceChecked owner data a = lift (validatePrice owner data a) := by
  rw [validatePriceChecked, validatePrice]
  simp only [lift_bind, lift_require]
  refine require_bind_congr fun _ => require_bind_congr fun hlong => ?_
  have hmin : 125 ≤ data.length := hlong
  have hoff : messageOffset data ≤ 42 := by
    rw [messageOffset]
    split <;> omega
  rw [range_of (i := 0) (n := 8) (by omega), ok_bind, slice, List.drop_zero]
  refine require_bind_congr fun _ => ?_
  rw [index_of (by omega), ok_bind]
  refine require_bind_congr fun _ => ?_
  -- The longer of the two layouts is read up to byte 102.
  rw [← messageOffset, range_of (by omega), ok_bind]
  refine require_bind_congr fun _ => ?_
  rw [show messageOffset data + 40 = messageOffset data + 32 + 8 from rfl, range_of (by omega),
    ok_bind, show messageOffset data + 60 = messageOffset data + 52 + 8 from rfl,
    range_of (by omega), ok_bind]
  rfl

section Posted
variable (p : Posting) (feed : List.Vector UInt8 32) (u : Update) (rest : Bytes) (a : Args)

/-- Where the window ends past the last time that fits, the handler stops before it compares. -/
theorem validatePrice_overflow (hfeed : a.feedId = feed) (hend : 2 ^ 63 ≤ a.windowEnd) :
    validatePrice pythReceiverProgramId (p.encode feed u ++ rest) a =
      .error (.pyth .overflow) := by
  have hdisc : (p.encode feed u ++ rest).take 8 = priceUpdateV2Discriminator := by
    rw [Posting.encode, List.append_assoc]
    exact List.take_left' rfl
  have hmessage : messageFeed (p.encode feed u ++ rest) = a.feedId.1 := by
    rw [hfeed]
    exact (fields_encode p feed u rest).1
  have hstaleness : a.maxStalenessSeconds.toNat < 2 ^ 63 := by
    have := a.maxStalenessSeconds.toNat_lt
    omega
  have hupper : checkedAddInt (ProgramError.pyth .overflow) a.referenceTs
      (Int64.ofNat a.maxStalenessSeconds.toNat) = .error (.pyth .overflow) := by
    rw [checkedAddInt, if_neg]
    rw [Int64.toInt_ofNat_of_lt hstaleness]
    rintro ⟨-, hfits⟩
    exact absurd hfits (not_lt.mpr hend)
  rw [validatePrice, require_of rfl, ok_bind, require_of (length_encode_ge p feed u rest), ok_bind,
    require_of hdisc, ok_bind, require_of (messageOffset_encode p feed u rest).2, ok_bind,
    require_of hmessage, ok_bind, hupper]
  rfl

/-- **Decoding a price update.** Of every posted update, at either verification level and with any
bytes behind it, the handler reads the feed, the price and the publish time; it answers exactly
when the feed is the one asked for, the end of the window fits in 64 bits and the publish time lies
in the window, and then whether the price reaches the threshold. No bytes make it leave the
account's data. -/
theorem price_update_decoded :
    (messageFeed (p.encode feed u ++ rest) = feed.1 ∧
      messagePrice (p.encode feed u ++ rest) = u.price ∧
      messagePublishTime (p.encode feed u ++ rest) = u.publishTime) ∧
    (∀ holds, validatePrice pythReceiverProgramId (p.encode feed u ++ rest) a = .ok holds ↔
      a.feedId = feed ∧ a.windowEnd < 2 ^ 63 ∧ a.Admits u ∧
        holds = decide (a.threshold ≤ u.price)) ∧
    (a.feedId = feed → 2 ^ 63 ≤ a.windowEnd →
      validatePrice pythReceiverProgramId (p.encode feed u ++ rest) a =
        .error (.pyth .overflow)) ∧
    ∀ (owner : Pubkey) (bs : Bytes) (b : Args),
      validatePriceChecked owner bs b ≠ .error .outOfBounds := by
  refine ⟨fields_encode p feed u rest, fun holds => validatePrice_append rest,
    validatePrice_overflow p feed u rest a, fun owner bs b => ?_⟩
  rw [validatePriceChecked_eq]
  exact lift_ne_outOfBounds _

end Posted

end PythValidator

namespace Sample

/-- A reference time in the last minute that fits in 64 bits. -/
def lastMinute : PythValidator.Args := ⟨feedId, 6500000000000, 9223372036854775800, 120⟩

/-- An update of that minute, over the threshold. -/
def lastUpdate : PythValidator.Update :=
  ⟨6600000000000, 0, -8, 9223372036854775801, 9223372036854775800, 6600000000000, 0⟩

end Sample

/-- The feed matches, the price is over the threshold and published in the window, and the handler
does not answer, because the end of the window does not fit. -/
theorem window_end_overflows : ¬ ∀ (p : PythValidator.Posting) (feed : List.Vector UInt8 32)
    (u : PythValidator.Update) (rest : Bytes) (a : PythValidator.Args),
    a.feedId = feed → a.Admits u →
      (PythValidator.validatePrice pythReceiverProgramId (p.encode feed u ++ rest) a = .ok true ↔
        a.threshold ≤ u.price) := by
  intro hall
  have h := hall ⟨pythReceiverProgramId, .fully, 0⟩ Sample.feedId Sample.lastUpdate []
    Sample.lastMinute rfl ⟨by decide, by decide⟩
  have hanswer := h.mpr (by decide)
  have hoverflow := PythValidator.validatePrice_overflow ⟨pythReceiverProgramId, .fully, 0⟩
    Sample.feedId Sample.lastUpdate [] Sample.lastMinute rfl (by decide)
  cases hanswer.symm.trans hoverflow

end Stoppage

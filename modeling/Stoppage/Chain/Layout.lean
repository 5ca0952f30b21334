import Stoppage.Chain.Accounts

/-! # The bytes of the market program's accounts

The account macro prepends the first eight bytes of `sha256("account:<name>")`, and the fields
follow in the order of the structure, in the Borsh format.
-/

namespace Stoppage
open LittleEndian
set_option autoImplicit false

def encodeBool (b : Bool) : Bytes := [if b then 1 else 0]

theorem length_encodeBool (b : Bool) : (encodeBool b).length = 1 := rfl

def utf8 (s : String) : Bytes := s.toList.flatMap String.utf8EncodeChar

theorem utf8_toByteArray (s : String) : (utf8 s).toByteArray = s.toByteArray := by
  rw [← String.utf8Encode_toList]
  rfl

theorem length_utf8 (s : String) : (utf8 s).length = s.utf8ByteSize := by
  have hsize : (utf8 s).toByteArray.size = (utf8 s).length := List.size_toByteArray
  rw [← hsize, utf8_toByteArray]
  rfl

/-! ## Markets and positions -/

def Market.discriminator : Bytes := [219, 190, 213, 55, 0, 227, 198, 154]

/-- The fields of a market behind its seeds. -/
def Market.terms (mk : Market) : Bytes :=
  mk.creator.bytes ++ (mk.oracle.bytes ++ (encodeU64 mk.bondLamports ++
    (encodeBool mk.bondClaimed ++ (encodeU64 mk.yesPool ++ (encodeU64 mk.noPool ++
      (encodeI64 mk.closesAt ++ (encodeI64 mk.settlesAt ++ ([mk.status] ++ ([mk.outcome] ++
        (encodeU16 mk.feeBps ++ (encodeU32 mk.verifications ++ [mk.bump])))))))))))

def Market.data (mk : Market) : Bytes :=
  Market.discriminator ++ ([mk.kind] ++ (mk.matchId.1 ++ (mk.team.1 ++
    (encodeU64 mk.paramU64 ++ mk.terms))))

theorem Market.length_data (mk : Market) : mk.data.length = Market.space := by
  simp only [Market.data, Market.terms, List.length_append, length_encodeU16, length_encodeU64, length_encodeI64,
    length_encodeU32, length_encodeBool, Pubkey.size, mk.matchId.2, mk.team.2,
    Market.discriminator, List.length_cons, List.length_nil, Market.space]

def Position.discriminator : Bytes := [170, 188, 143, 228, 122, 64, 247, 208]

def Position.data (p : Position) : Bytes :=
  Position.discriminator ++ (p.market.bytes ++ (p.owner.bytes ++ ([p.side] ++
    (encodeU64 p.amountLamports ++ (encodeBool p.openedViaSessionKey ++ [p.bump])))))

theorem Position.length_data (p : Position) : p.data.length = Position.space := by
  simp only [Position.data, List.length_append, length_encodeU64, length_encodeBool, Pubkey.size,
    Position.discriminator, List.length_cons, List.length_nil, Position.space]

/-! ## Records of variable length -/

def SessionGrant.discriminator : Bytes := [34, 113, 59, 89, 44, 90, 49, 149]

def SessionGrant.data (g : SessionGrant) : Bytes :=
  SessionGrant.discriminator ++ (g.owner.bytes ++ (g.sessionPubkey.bytes ++
    ((encode 4 g.allowedPrograms.length ++ g.allowedPrograms.flatMap Pubkey.bytes) ++
      (encodeU64 g.maxStakePerMarket ++ (encodeU64 g.maxTotalStake ++
        (encodeU64 g.stakedSoFar ++ (encodeI64 g.expiresAt ++
          (encodeBool g.revoked ++ [g.bump]))))))))

theorem length_flatMap_bytes (ks : List Pubkey) :
    (ks.flatMap Pubkey.bytes).length = ks.length * 32 := by
  induction ks with
  | nil => rfl
  | cons k ks ih =>
    rw [List.flatMap_cons, List.length_append, ih, k.size, List.length_cons]
    omega

theorem SessionGrant.length_data (g : SessionGrant) :
    g.data.length + maxPrograms * 32 = SessionGrant.space + g.allowedPrograms.length * 32 := by
  simp only [SessionGrant.data, List.length_append, length_encode, length_encodeU64, length_encodeI64,
    length_encodeBool, Pubkey.size, length_flatMap_bytes, SessionGrant.discriminator,
    List.length_cons, List.length_nil, SessionGrant.space]
  omega

def PricingReceipt.discriminator : Bytes := [83, 144, 163, 227, 204, 211, 182, 128]

def PricingReceipt.data (r : PricingReceipt) : Bytes :=
  PricingReceipt.discriminator ++ (r.market.bytes ++ (r.snapshotHash.1 ++
    ((encode 4 (utf8 r.modelVersion).length ++ utf8 r.modelVersion) ++
      (encodeU64 r.fairValue ++ (encodeU64 r.bid ++ (encodeU64 r.ask ++
        (r.agentSignature.1 ++ (encodeI64 r.ts ++ [r.bump]))))))))

/-- The space of a receipt counts the longest model version and leaves the snapshot hash out. -/
theorem PricingReceipt.length_data (r : PricingReceipt) : r.data.length + maxModelVersionLen =
    PricingReceipt.space + 32 + r.modelVersion.utf8ByteSize := by
  simp only [PricingReceipt.data, List.length_append, length_encode, length_encodeU64, length_encodeI64,
    Pubkey.size, length_utf8, r.snapshotHash.2, r.agentSignature.2, PricingReceipt.discriminator,
    List.length_cons, List.length_nil, PricingReceipt.space]
  omega

end Stoppage

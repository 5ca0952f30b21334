import Stoppage.Instance.Lifecycle
import Stoppage.Keeper.Week
import Stoppage.Sdk.RoundTrip

/-! # What a restarted keeper tracks

A new process of the interval or of the week keeper reads its open markets back from the chain.
`recovery_exact`: it tracks the markets that `ensurePriceMarket` has created, as long as they are
open, with the terms they were created with.
-/

namespace Stoppage.Keeper
open Fallible Sdk Escrow LittleEndian Padding TransitionSystem
set_option autoImplicit false

/-! ## Match ids -/

/-- A character that stands for itself in a pattern, other than the colon. -/
def Literal (u : UInt16) : Prop :=
  0x20 ≤ u.toNat ∧ u.toNat < 0x7F ∧ u ∉ Utf16.ofString "^$\\.*+?()[]\x7b\x7d|:"

instance (u : UInt16) : Decidable (Literal u) := inferInstanceAs (Decidable (_ ∧ _ ∧ _))

/-- `PRICE_SYMBOL`, a name like `SOL/USD` that leaves room in a match id. -/
structure PriceSymbol where
  text : JsString
  literal : ∀ u ∈ text, Literal u
  brief : text.length ≤ 17

/-- The pattern `^${PRICE_SYMBOL}:\d+$` -/
def isIntervalMatchId (symbol : PriceSymbol) (matchId : JsString) : Bool :=
  match matchId.dropPrefix? (symbol.text ++ [colon]) with
  | none => false
  | some digits => !digits.isEmpty && digits.all isDigit

section Shapes
variable {symbol : PriceSymbol} {matchId : JsString}

theorem isIntervalMatchId_iff : isIntervalMatchId symbol matchId = true ↔
    ∃ digits, matchId = symbol.text ++ colon :: digits ∧ digits ≠ [] ∧
      ∀ u ∈ digits, isDigit u = true := by
  rw [isIntervalMatchId]
  constructor
  · intro h
    split at h
    · cases h
    · rename_i digits hdrop
      obtain ⟨front, rfl, hfront⟩ := List.dropPrefix?_eq_some_iff.mp hdrop
      rw [Bool.and_eq_true, List.all_eq_true] at h
      refine ⟨digits, ?_, ?_, h.2⟩
      · rw [eq_of_beq hfront, List.append_assoc]
        rfl
      · simpa using h.1
  · rintro ⟨digits, rfl, hne, hall⟩
    have hdrop : (symbol.text ++ colon :: digits).dropPrefix? (symbol.text ++ [colon]) =
        some digits :=
      List.dropPrefix?_eq_some_iff.mpr ⟨symbol.text ++ [colon], by simp, beq_self_eq_true _⟩
    rw [hdrop]
    simpa using ⟨hne, hall⟩

theorem PriceSymbol.colon_notMem (symbol : PriceSymbol) : colon ∉ symbol.text := by
  intro hmem
  exact absurd (symbol.literal colon hmem) (by decide)

theorem isWeekLabel_head {u : UInt16} {us : JsString} (h : isWeekLabel (u :: us) = true) :
    u = 87 := by
  unfold isWeekLabel at h
  split at h
  · rename_i heq
    cases heq
    rw [Bool.and_eq_true, decide_eq_true_eq] at h
    exact h.1.1
  · cases h

/-- No match id has both shapes. -/
theorem not_both_shapes : ¬ (isIntervalMatchId symbol matchId = true ∧
    isWeekMatchId matchId = true) := by
  rintro ⟨hinterval, hweek⟩
  obtain ⟨digits, rfl, hne, hall⟩ := isIntervalMatchId_iff.mp hinterval
  have hplain : colon ∉ digits := fun hmem => absurd (hall colon hmem) (by decide)
  rw [isWeekMatchId, List.splitOn_append_cons_self_of_not_mem symbol.colon_notMem,
    List.splitOn_eq_singleton hplain] at hweek
  cases digits with
  | nil => exact hne rfl
  | cons u us =>
    obtain rfl := isWeekLabel_head hweek
    exact absurd (hall 87 List.mem_cons_self) (by decide)

end Shapes

/-! ## Recovery -/

/-- The sizes of the other accounts of the market program; a market of the time before `oracle` is
smaller by the key. -/
def otherSpaces : List ℕ :=
  [0, ProtocolConfig.space, AgentAuthority.space, SessionGrant.space, Position.space,
    PricingReceipt.space, Market.space - 32]

/-- The data of an account of the market program. -/
inductive ProgramAccount (s : Chain) (pda : Pubkey) : Bytes → Prop
  | market (mk : Stoppage.Market) (hmk : s.market pda = some mk) : ProgramAccount s pda mk.data
  | other (data : Bytes) (hspace : data.length ∈ otherSpaces) : ProgramAccount s pda data

/-- `dataSize` and the two `memcmp` filters. -/
def matchesFilters (wallet : Pubkey) (data : Bytes) : Prop :=
  data.length = Market.space ∧ (data.drop 8).take 1 = [4] ∧
    (data.drop (8 + 1 + 32 + 8 + 8)).take 32 = wallet.bytes

instance (wallet : Pubkey) (data : Bytes) : Decidable (matchesFilters wallet data) :=
  inferInstanceAs (Decidable (_ ∧ _ ∧ _))

/-- What `getProgramAccounts` answers: the accounts that match, each of them once. -/
structure Scans (wallet : Pubkey) (s : Chain) (accounts : List (Pubkey × Bytes)) : Prop where
  once : (accounts.map Prod.fst).Nodup
  sound : ∀ e ∈ accounts, ProgramAccount s e.1 e.2 ∧ matchesFilters wallet e.2
  complete : ∀ pda mk, s.market pda = some mk → matchesFilters wallet mk.data →
    (pda, mk.data) ∈ accounts

def recoverMarket (accept : JsString → Bool) (tracked : OrderedMap Pubkey TrackedPriceMarket)
    (pubkey : Pubkey) (data : Bytes) : Except SdkError (OrderedMap Pubkey TrackedPriceMarket) := do
  let m ← parseMarket data pubkey
  if m.status ≠ .open then pure tracked
  else if accept m.predicate.matchId = false then pure tracked
  else do
    -- The date has whole seconds.
    let refTs := m.closesAt / 1000
    let thresholdRaw ← toBigInt (m.predicate.params.threshold.getD 0)
    if (tracked.get pubkey).isSome then pure tracked
    else pure (tracked.set pubkey
      { predicate := m.predicate
        marketPda := pubkey
        referenceTs := refTs
        thresholdRaw
        oracle := some m.oracle })

/-- The loop, with the error that ends it. -/
def recoverMarkets (accept : JsString → Bool) : List (Pubkey × Bytes) →
    OrderedMap Pubkey TrackedPriceMarket →
    OrderedMap Pubkey TrackedPriceMarket × Option SdkError
  | [], tracked => (tracked, none)
  | (pubkey, data) :: accounts, tracked =>
    match recoverMarket accept tracked pubkey data with
    | .ok tracked => recoverMarkets accept accounts tracked
    | .error e => (tracked, some e)

/-- What is tracked after the scan; the keepers log an error and go on. -/
def recoverOpenPriceMarkets (accept : JsString → Bool)
    (getProgramAccounts : Except SdkError (List (Pubkey × Bytes)))
    (tracked : OrderedMap Pubkey TrackedPriceMarket) :
    OrderedMap Pubkey TrackedPriceMarket × Option SdkError :=
  match getProgramAccounts with
  | .error e => (tracked, some e)
  | .ok accounts => recoverMarkets accept accounts tracked

/-! ## The loop -/

/-- An account from which the keeper takes up a market. -/
def Takes (accept : JsString → Bool) (pubkey : Pubkey) (data : Bytes) (v : TrackedPriceMarket) :
    Prop :=
  ∃ m thresholdRaw, parseMarket data pubkey = .ok m ∧ m.status = .open ∧
    accept m.predicate.matchId = true ∧
    toBigInt (m.predicate.params.threshold.getD 0) = .ok thresholdRaw ∧
    v = ⟨m.predicate, pubkey, m.closesAt / 1000, thresholdRaw, some m.oracle⟩

/-- The account can be parsed, and its parameter is an integer. -/
def Legible (pubkey : Pubkey) (data : Bytes) : Prop :=
  ∃ m thresholdRaw, parseMarket data pubkey = .ok m ∧
    toBigInt (m.predicate.params.threshold.getD 0) = .ok thresholdRaw

section Loop
variable {accept : JsString → Bool} {tracked : OrderedMap Pubkey TrackedPriceMarket}

theorem recoverMarket_ok {pubkey : Pubkey} {data : Bytes} (hlegible : Legible pubkey data)
    (hnew : tracked.get pubkey = none) :
    ∃ tracked', recoverMarket accept tracked pubkey data = .ok tracked' ∧
      (∀ v, tracked'.get pubkey = some v ↔ Takes accept pubkey data v) ∧
      ∀ pda, pda ≠ pubkey → tracked'.get pda = tracked.get pda := by
  obtain ⟨m, thresholdRaw, hparse, hthreshold⟩ := hlegible
  rw [recoverMarket, hparse, ok_bind]
  by_cases hopen : m.status = .open
  · by_cases haccept : accept m.predicate.matchId = true
    · rw [if_neg (not_not.mpr hopen), if_neg (by simp [haccept]), hthreshold, ok_bind,
        if_neg (by simp [hnew])]
      refine ⟨_, rfl, fun v => ?_, fun pda hpda => OrderedMap.get_set_of_ne hpda⟩
      rw [OrderedMap.get_set_self, Option.some.injEq]
      constructor
      · rintro rfl
        exact ⟨m, thresholdRaw, hparse, hopen, haccept, hthreshold, rfl⟩
      · rintro ⟨m', thresholdRaw', hparse', -, -, hthreshold', rfl⟩
        cases hparse.symm.trans hparse'
        cases hthreshold.symm.trans hthreshold'
        rfl
    · rw [if_neg (not_not.mpr hopen), if_pos (by simpa using haccept)]
      refine ⟨tracked, rfl, fun v => ?_, fun _ _ => rfl⟩
      rw [hnew]
      refine iff_of_false (by simp) ?_
      rintro ⟨m', _, hparse', -, haccept', -⟩
      cases hparse.symm.trans hparse'
      exact haccept haccept'
  · rw [if_pos hopen]
    refine ⟨tracked, rfl, fun v => ?_, fun _ _ => rfl⟩
    rw [hnew]
    refine iff_of_false (by simp) ?_
    rintro ⟨m', _, hparse', hopen', -⟩
    cases hparse.symm.trans hparse'
    exact hopen hopen'

/-- A scan of accounts that can all be read takes up the markets that each of them gives. -/
theorem recoverMarkets_ok {accounts : List (Pubkey × Bytes)}
    (honce : (accounts.map Prod.fst).Nodup) (hlegible : ∀ e ∈ accounts, Legible e.1 e.2)
    (hnew : ∀ e ∈ accounts, tracked.get e.1 = none) :
    ∃ tracked', recoverMarkets accept accounts tracked = (tracked', none) ∧
      ∀ pda v, tracked'.get pda = some v ↔
        tracked.get pda = some v ∨ ∃ data, (pda, data) ∈ accounts ∧ Takes accept pda data v := by
  induction accounts generalizing tracked with
  | nil => exact ⟨tracked, rfl, by simp⟩
  | cons e accounts ih =>
    obtain ⟨pubkey, data⟩ := e
    rw [List.map_cons, List.nodup_cons] at honce
    have hother : ∀ e ∈ accounts, e.1 ≠ pubkey := fun e he hsame =>
      honce.1 (List.mem_map.mpr ⟨e, he, hsame⟩)
    have hfirst := hnew _ List.mem_cons_self
    obtain ⟨tracked₁, hstep, hself, hrest⟩ :=
      @recoverMarket_ok accept tracked pubkey data (hlegible _ List.mem_cons_self) hfirst
    obtain ⟨tracked', hrun, hget⟩ := ih honce.2
      (fun e he => hlegible e (List.mem_cons_of_mem _ he))
      (fun e he => (hrest _ (hother e he)).trans (hnew e (List.mem_cons_of_mem _ he)))
    refine ⟨tracked', ?_, fun pda v => ?_⟩
    · rw [recoverMarkets, hstep]
      exact hrun
    · rw [hget]
      by_cases hpda : pda = pubkey
      · subst hpda
        rw [hself, hfirst]
        constructor
        · rintro (htakes | ⟨data', hmem, -⟩)
          · exact .inr ⟨data, List.mem_cons_self, htakes⟩
          · exact absurd rfl (hother _ hmem)
        · rintro (hnone | ⟨data', hmem, htakes⟩)
          · cases hnone
          · rcases List.mem_cons.mp hmem with heq | hmem
            · cases heq
              exact .inl htakes
            · exact absurd rfl (hother _ hmem)
      · rw [hrest pda hpda]
        refine or_congr_right ⟨?_, ?_⟩
        · rintro ⟨data', hmem, htakes⟩
          exact ⟨data', List.mem_cons_of_mem _ hmem, htakes⟩
        · rintro ⟨data', hmem, htakes⟩
          rcases List.mem_cons.mp hmem with heq | hmem
          · exact absurd (congrArg Prod.fst heq) hpda
          · exact ⟨data', hmem, htakes⟩

end Loop

/-! ## Created markets -/

/-- The calls of `ensurePriceMarket` in the two keepers, with any round and any week. -/
inductive KeeperOpts (symbol : PriceSymbol) : EnsureOpts → Prop
  | interval (referenceTs : ℤ) :
      KeeperOpts symbol ⟨intervalMatchId symbol.text referenceTs, referenceTs, 0⟩
  | week (year : ℤ) (week : ℕ) (referenceTs : ℤ) (deltaUsd : ℚ) (hyear : year.natAbs < 10 ^ 6)
      (hweek : week < 10 ^ 2) :
      KeeperOpts symbol ⟨weekMatchId symbol.text year week, referenceTs, deltaUsd⟩

/-- The market `v` comes from a call of `ensurePriceMarket` with this wallet, whose transaction is on
the chain, and it is not closed since. -/
inductive Created (rt : Runtime) (wallet : Pubkey) (symbol : PriceSymbol) (s : Chain)
    (v : TrackedPriceMarket) : Prop
  | intro (cfg : PriceConfig) (spot : Except SdkError ℤ)
      (getAccountInfo : Pubkey → Except SdkError (Option Bytes))
      (tracked : OrderedMap Pubkey TrackedPriceMarket) (opts : EnsureOpts)
      (ix : TransactionInstruction) (instruction : Instruction) (ctx : TxContext) (u t : Chain)
      (as : List Action) (hruntime : cfg.runtime = rt) (hwallet : cfg.wallet = wallet)
      (hopts : KeeperOpts symbol opts)
      (hensure : ensurePriceMarket cfg spot getAccountInfo tracked opts = .ok (.creates v ix))
      (hrange : 0 ≤ v.thresholdRaw ∧ v.thresholdRaw ≤ 2 ^ 53)
      (hentry : MarketProgram.createMarketEntry rt ix = some instruction)
      (hexec : exec rt ctx instruction u = .ok t) (hrun : Steps (Step rt) t as s)
      (halive : ∀ a ∈ as, a.opOn rt v.marketPda ≠ .close) : Created rt wallet symbol s v

/-- A market of a keeper as it is stored. -/
structure Stores (wallet : Pubkey) (v : TrackedPriceMarket) (mk : Stoppage.Market) : Prop where
  kind : mk.kind = 4
  creator : mk.creator = wallet
  predicate : predicateOf mk.kind mk.matchId.1 mk.team.1 (numberOfU64 mk.paramU64) = v.predicate
  threshold : v.predicate.params.threshold = some (v.thresholdRaw : ℚ)
  closesAt : mk.closesAt.toInt = v.referenceTs
  dated : -maxSeconds ≤ v.referenceTs ∧ v.referenceTs ≤ maxSeconds
  oracle : v.oracle = some mk.oracle

/-! ### Texts and numbers -/

/-- Characters that a text of 32 bytes gives back. -/
def Plain (u : UInt16) : Prop := 0 < u.toNat ∧ u.toNat < 0x80

instance (u : UInt16) : Decidable (Plain u) := inferInstanceAs (Decidable (_ ∧ _))

theorem textOf_matchId {s : JsString} (hplain : ∀ u ∈ s, Plain u) (hlength : s.length ≤ 32) :
    textOf (matchIdToBuffer s).1 = s := by
  have hascii : Utf16.Ascii s := fun u hu => (hplain u hu).2
  refine (textOf_padString_iff hlength).mpr ((Survives.ascii hascii).mpr fun hlast => ?_)
  exact absurd (hplain 0 (List.mem_of_getLast? hlast)) (by decide)

theorem plain_of_numberChar {c : Char} (h : Decimal.NumberChar c) :
    c.toNat < 0x80 ∧ Plain (UInt16.ofNat c.toNat) := by
  obtain ⟨hsmall, -, hnul⟩ := h.ascii
  refine ⟨hsmall, ?_⟩
  rw [Plain, Utf16.toNat_ofNat (by omega)]
  refine ⟨Nat.pos_of_ne_zero fun hzero => hnul ?_, hsmall⟩
  exact Char.toNat_inj.mp (hzero.trans (by decide))

/-- A symbol and fifteen more characters come back. -/
theorem PriceSymbol.textOf_append (symbol : PriceSymbol) {cs : List Char}
    (hcs : ∀ c ∈ cs, c.toNat < 0x80 ∧ Plain (UInt16.ofNat c.toNat)) (hlength : cs.length ≤ 15) :
    textOf (matchIdToBuffer (symbol.text ++ Utf16.ofChars cs)).1 =
      symbol.text ++ Utf16.ofChars cs := by
  refine textOf_matchId (List.forall_mem_append.mpr ⟨fun u hu => ?_, ?_⟩) ?_
  · have hliteral := symbol.literal u hu
    exact ⟨by have := hliteral.1; omega, by have := hliteral.2.1; omega⟩
  · exact Utf16.forall_mem_ofChars hcs
  · rw [List.length_append, Utf16.length_ofChars fun c hc => (hcs c hc).1]
    have := symbol.brief
    omega

/-- The match ids of the keepers come back. -/
theorem KeeperOpts.textOf_matchId {symbol : PriceSymbol} {opts : EnsureOpts}
    (h : KeeperOpts symbol opts) (hdated : opts.referenceTs.natAbs < 10 ^ 13) :
    textOf (matchIdToBuffer opts.matchId).1 = opts.matchId := by
  cases h with
  | interval referenceTs =>
    refine symbol.textOf_append ?_ ?_
    · refine List.forall_mem_cons.mpr ⟨by decide, fun c hc => ?_⟩
      exact plain_of_numberChar (Decimal.numberChar_of_mem_ofInt c hc)
    · have hdigits := Decimal.length_ofInt_le (by omega) (by omega)
        (show referenceTs.natAbs < 10 ^ 13 from hdated)
      rw [List.length_cons]
      omega
  | week year week referenceTs deltaUsd hyear hweek =>
    refine symbol.textOf_append ?_ ?_
    · refine List.forall_mem_cons.mpr ⟨by decide, List.forall_mem_cons.mpr ⟨by decide, ?_⟩⟩
      refine List.forall_mem_append.mpr ⟨fun c hc => ?_, List.forall_mem_cons.mpr ⟨by decide, ?_⟩⟩
      · exact plain_of_numberChar (Decimal.numberChar_of_mem_ofInt c hc)
      refine List.forall_mem_append.mpr ⟨fun c hc => ?_, fun c hc => ?_⟩
      · rw [List.eq_of_mem_replicate hc]
        decide
      · exact plain_of_numberChar (Decimal.numberChar_of_mem_ofNat c hc)
    · have hyears := Decimal.length_ofInt_le (by omega) (by omega) hyear
      have hweeks := Decimal.length_ofNat_le (by omega) (by omega) hweek
      simp only [List.length_cons, List.length_append, List.length_replicate]
      omega

/-- An integer up to `2 ^ 53` is exact as a double, and as the double of its 64-bit word. -/
theorem exact_threshold {z : ℤ} (hpos : 0 ≤ z) (hmax : z ≤ 2 ^ 53) :
    Double.ofInt z = z ∧ numberOfU64 (UInt64.ofInt z) = z := by
  have hdouble : Double.ofNat z.natAbs = z.natAbs := by
    by_cases hlast : z.natAbs = 2 ^ 53
    · rw [hlast]
      decide +kernel
    · exact Double.ofNat_of_lt (by omega)
  have hword : (UInt64.ofInt z).toNat = z.natAbs := by
    have hmod := toNat_ofInt z
    omega
  constructor
  · rw [Double.ofInt, if_neg (by omega), hdouble]
    omega
  · rw [numberOfU64, hword, hdouble]
    rw [← Int.cast_natCast, Int.natAbs_of_nonneg hpos]

/-! ### From the creation to the scan -/

section Stored
variable {rt : Runtime} {wallet : Pubkey} {symbol : PriceSymbol} {v : TrackedPriceMarket}

/-- A date that can be written, as a 64-bit number of seconds. -/
theorem dated_of_isoOfSeconds {seconds time : ℤ} (h : isoOfSeconds seconds = .ok time) :
    (Int64.ofInt seconds).toInt = seconds ∧ -maxSeconds ≤ seconds ∧ seconds ≤ maxSeconds := by
  have hsmall := natAbs_of_isoOfSeconds h
  have hword : (Int64.ofInt seconds).toInt = seconds :=
    Int64.toInt_ofInt_of_le (by omega) (by omega)
  have hnumber : numberOfI64 (Int64.ofInt seconds) = seconds := by
    rw [numberOfI64, hword, Double.ofInt_of_natAbs_lt hsmall]
  rw [← hnumber] at h
  obtain ⟨hlow, hhigh, -⟩ := isoOfSeconds_eq_ok.mp h
  rw [hword] at hlow hhigh
  exact ⟨hword, hlow, hhigh⟩

/-- The seeds of a predicate on a price give the predicate back. -/
theorem read_pricePredicate {matchId : JsString} {thresholdRaw : ℤ} {seeds : MarketSeeds}
    (hseeds : (pricePredicate matchId thresholdRaw).seeds = .ok seeds)
    (htext : textOf (matchIdToBuffer matchId).1 = matchId) (hpos : 0 ≤ thresholdRaw)
    (hmax : thresholdRaw ≤ 2 ^ 53) :
    seeds.kind = 4 ∧
      predicateOf seeds.kind seeds.matchId.1 seeds.team.1 (numberOfU64 seeds.paramU64) =
        pricePredicate matchId thresholdRaw ∧
      (pricePredicate matchId thresholdRaw).params.threshold = some (thresholdRaw : ℚ) := by
  obtain ⟨hdouble, hback⟩ := exact_threshold hpos hmax
  obtain ⟨n, hn, hmade⟩ := bind_eq_ok.mp hseeds
  obtain rfl := Except.ok.inj hmade
  have hparam : Double.ofInt thresholdRaw = n := Int.cast_inj.mp (toBigInt_eq_ok.mp hn)
  rw [hdouble] at hparam
  subst hparam
  refine ⟨rfl, ?_, by rw [pricePredicate, hdouble]⟩
  show predicateOf 4 (matchIdToBuffer matchId).1 (teamToBuffer []).1
    (numberOfU64 (UInt64.ofInt thresholdRaw)) = _
  rw [predicateOf, htext, hback, pricePredicate, hdouble]
  rfl

/-- The account that the transaction of a keeper creates holds the market. -/
theorem stores_of_creation {cfg : PriceConfig} {spot : Except SdkError ℤ}
    {getAccountInfo : Pubkey → Except SdkError (Option Bytes)}
    {tracked : OrderedMap Pubkey TrackedPriceMarket} {opts : EnsureOpts}
    {ix : TransactionInstruction} {instruction : Instruction} {ctx : TxContext} {u t : Chain}
    (hopts : KeeperOpts symbol opts)
    (hensure : ensurePriceMarket cfg spot getAccountInfo tracked opts = .ok (.creates v ix))
    (hrange : 0 ≤ v.thresholdRaw ∧ v.thresholdRaw ≤ 2 ^ 53)
    (hentry : MarketProgram.createMarketEntry cfg.runtime ix = some instruction)
    (hexec : exec cfg.runtime ctx instruction u = .ok t) :
    ∃ mk, t.market v.marketPda = some mk ∧ Stores cfg.wallet v mk := by
  obtain ⟨sp, marketPda, -, haddress, hensured⟩ := ensurePriceMarket_ok hensure
  cases hensured with
  | creates time ix _ _ hdate _ hix =>
    obtain ⟨seeds, closes, feeBps, hseeds, hcloses, hmk⟩ := exists_created hix hentry hexec
    obtain ⟨seeds', hseeds', rfl⟩ := findMarketPdaFromPredicate_eq_ok.mp haddress
    cases hseeds.symm.trans hseeds'
    obtain ⟨hword, hlow, hhigh⟩ := dated_of_isoOfSeconds hdate
    have hmax : maxSeconds = 8640000000000 := rfl
    have htext := hopts.textOf_matchId (by omega)
    have hsame : opts.referenceTs = closes := Int.cast_inj.mp hcloses
    obtain ⟨hkind, hpredicate, hthreshold⟩ :=
      read_pricePredicate hseeds htext hrange.1 hrange.2
    rw [← hsame] at hmk
    exact ⟨_, hmk, hkind, rfl, hpredicate, hthreshold, hword, ⟨hlow, hhigh⟩, rfl⟩

theorem Stores.of_sameTerms {mk mk' : Stoppage.Market} (h : Stores wallet v mk)
    (hterms : SameTerms mk mk') : Stores wallet v mk' where
  kind := hterms.kind.trans h.kind
  creator := hterms.creator.trans h.creator
  predicate := by rw [hterms.kind, hterms.matchId, hterms.team, hterms.paramU64, h.predicate]
  threshold := h.threshold
  closesAt := by rw [hterms.closesAt, h.closesAt]
  dated := h.dated
  oracle := by rw [hterms.oracle, h.oracle]

/-- A created market is still there with its terms. -/
theorem Created.stores {s : Chain} (h : Created rt wallet symbol s v) :
    ∃ mk, s.market v.marketPda = some mk ∧ Stores wallet v mk := by
  obtain ⟨cfg, spot, getAccountInfo, tracked, opts, ix, instruction, ctx, u, t, as, rfl, rfl, hopts,
    hensure, hrange, hentry, hexec, hrun, halive⟩ := h
  obtain ⟨mk, hmk, hstores⟩ := stores_of_creation hopts hensure hrange hentry hexec
  obtain ⟨mk', hmk', hterms⟩ := terms_of_run hrun hmk halive
  exact ⟨mk', hmk', hstores.of_sameTerms hterms⟩

theorem matchesFilters_iff {mk : Stoppage.Market} :
    matchesFilters wallet mk.data ↔ mk.kind = 4 ∧ mk.creator = wallet := by
  have hkind : (mk.data.drop 8).take 1 = [mk.kind] := rfl
  have hsplit : mk.data = (Market.discriminator ++ ([mk.kind] ++ (mk.matchId.1 ++ (mk.team.1 ++
      encodeU64 mk.paramU64)))) ++ mk.terms := by
    simp only [Market.data, List.append_assoc]
  have hdrop : mk.data.drop (8 + 1 + 32 + 8 + 8) = mk.terms := by
    rw [hsplit]
    refine List.drop_left' ?_
    simp only [List.length_append, mk.matchId.2, mk.team.2, length_encodeU64]
    rfl
  have hcreator : mk.terms.take 32 = mk.creator.bytes := List.take_left' mk.creator.size
  rw [matchesFilters, hkind, hdrop, hcreator, List.cons.injEq, and_iff_left rfl]
  constructor
  · rintro ⟨-, hk, hbytes⟩
    exact ⟨hk, Pubkey.bytes_inj.mp hbytes⟩
  · rintro ⟨hk, rfl⟩
    exact ⟨mk.length_data, hk, rfl⟩

end Stored

/-! ### The time of a settlement -/

/-- Nothing has been settled later than now. -/
def SettledBy (s : Chain) (mk : Stoppage.Market) : Prop :=
  mk.settlesAt = 0 ∨ mk.settlesAt ≤ s.now

theorem SettledBy.mono {s t : Chain} {mk mk' : Stoppage.Market} (h : SettledBy s mk)
    (hsame : mk'.settlesAt = mk.settlesAt) (hle : s.now ≤ t.now) : SettledBy t mk' := by
  rw [SettledBy, hsame]
  exact h.imp_right fun hs => Int64.le_trans hs hle

theorem settledBy_of_change {rt : Runtime} {m : Pubkey} {s t : Chain} {op : Op}
    (hc : Change rt m s t op) (hle : s.now ≤ t.now)
    (h : ∀ mk, s.market m = some mk → SettledBy s mk) :
    ∀ mk, t.market m = some mk → SettledBy t mk := by
  intro mk' hmk'
  have hkept : ∀ {mk mk₁ : Stoppage.Market}, s.market m = some mk → t.market m = some mk₁ →
      mk₁.settlesAt = mk.settlesAt → SettledBy t mk' := by
    intro mk mk₁ hmk hmk₁ hsame
    rw [hmk₁] at hmk'
    cases hmk'
    exact (h mk hmk).mono hsame hle
  have hended : ∀ {mk₁ : Stoppage.Market}, t.market m = some mk₁ → mk₁.settlesAt = s.now →
      SettledBy t mk' := by
    intro mk₁ hmk₁ hsame
    rw [hmk₁] at hmk'
    cases hmk'
    exact .inr (hsame ▸ hle)
  cases hc with
  | idle hmarket => exact hkept (hmarket ▸ hmk') hmk' rfl
  | create _ _ _ _ _ _ _ _ _ hmarket =>
    rw [hmarket] at hmk'
    cases hmk'
    exact .inl rfl
  | join o side amount mk mk₁ p' l hj hmarket =>
    refine hkept hj.market hmarket ?_
    rw [hj.joined.market]
  | forceSettle _ _ _ _ _ hmarket => exact hended hmarket rfl
  | settleFromProof _ _ _ _ _ _ _ _ _ _ hmarket => exact hended hmarket rfl
  | void _ _ _ _ _ hmarket => exact hended hmarket rfl
  | claim o mk p payout fee hcl _ _ hmarket => exact hkept hcl.market hmarket rfl
  | claimBond mk hmk _ _ _ hmarket => exact hkept hmk hmarket rfl
  | close _ _ _ _ hmarket =>
    rw [hmarket] at hmk'
    cases hmk'
  | attest mk n hmk _ hmarket => exact hkept hmk hmarket rfl

theorem settledBy {rt : Runtime} {s : Chain} (hs : Reachable rt s) {m : Pubkey}
    {mk : Stoppage.Market} (hmk : s.market m = some mk) : SettledBy s mk := by
  have hinv := hs.invariant (I := fun s => ∀ mk, s.market m = some mk → SettledBy s mk)
    (fun s hg mk hmk => by
      rw [hg.market] at hmk
      cases hmk)
    (fun _ _ _ hstep ih => settledBy_of_change (hstep.change m) hstep.now_le ih)
  exact hinv mk hmk

/-! ## Exactness -/

section Exact
variable {rt : Runtime} {wallet : Pubkey} {symbol : PriceSymbol} {s : Chain} {v : TrackedPriceMarket}
  {mk : Stoppage.Market}

/-- An account that the program can leave, before the end of the dates, can be parsed. -/
theorem Stores.parse (hstores : Stores wallet v mk) (hsettled : SettledBy s mk)
    (hclock : s.now.toInt ≤ maxSeconds) :
    parseMarket mk.data v.marketPda = .ok (viewOf mk v.marketPda (v.referenceTs * 1000)
      (if 0 < mk.settlesAt.toInt then some (mk.settlesAt.toInt * 1000) else none)) := by
  have hmax : maxSeconds = 8640000000000 := rfl
  have hdates := hstores.dated
  have hsettles : mk.settlesAt.toInt ≤ maxSeconds := by
    rcases hsettled with hzero | hle
    · rw [hzero]
      decide
    · rw [Int64.le_iff_toInt_le] at hle
      omega
  rw [← hstores.closesAt] at hdates ⊢
  exact parseMarket_ok_iff.mpr ⟨⟨hdates.1, hdates.2, hsettles⟩, rfl⟩

theorem statusFromNum_open_iff (hst : Storable mk) :
    statusFromNum mk.status = .open ↔ mk.status = statusOpen := by
  constructor
  · intro hopen
    rcases hst with ⟨hstatus, -⟩ | hended
    · exact hstatus
    · exact absurd hopen (statusFromNum_ended hended)
  · intro hstatus
    rw [hstatus]
    rfl

theorem Stores.toBigInt (hstores : Stores wallet v mk) (closesAt : ℤ) (settlesAt : Option ℤ) :
    toBigInt ((viewOf mk v.marketPda closesAt settlesAt).predicate.params.threshold.getD 0) =
      .ok v.thresholdRaw := by
  have hpredicate : (viewOf mk v.marketPda closesAt settlesAt).predicate = v.predicate :=
    hstores.predicate
  rw [hpredicate, hstores.threshold]
  exact toBigInt_eq_ok.mpr rfl

theorem Stores.legible (hstores : Stores wallet v mk) (hsettled : SettledBy s mk)
    (hclock : s.now.toInt ≤ maxSeconds) : Legible v.marketPda mk.data :=
  ⟨_, _, hstores.parse hsettled hclock, hstores.toBigInt _ _⟩

theorem Stores.takes_iff {accept : JsString → Bool} {v' : TrackedPriceMarket}
    (hstores : Stores wallet v mk) (hst : Storable mk) (hsettled : SettledBy s mk)
    (hclock : s.now.toInt ≤ maxSeconds) : Takes accept v.marketPda mk.data v' ↔
      mk.status = statusOpen ∧ accept v.predicate.matchId = true ∧ v' = v := by
  have hparse := hstores.parse hsettled hclock
  have hnumber := hstores.toBigInt (v.referenceTs * 1000)
    (if 0 < mk.settlesAt.toInt then some (mk.settlesAt.toInt * 1000) else none)
  generalize (if 0 < mk.settlesAt.toInt then some (mk.settlesAt.toInt * 1000) else none) = settlesAt
    at hparse hnumber
  have hpredicate : (viewOf mk v.marketPda (v.referenceTs * 1000) settlesAt).predicate =
      v.predicate := hstores.predicate
  have hback : v = ⟨v.predicate, v.marketPda, v.referenceTs * 1000 / 1000, v.thresholdRaw,
      some mk.oracle⟩ := by
    rw [Int.mul_ediv_cancel _ (by norm_num), ← hstores.oracle]
  rw [← statusFromNum_open_iff hst]
  constructor
  · rintro ⟨m, thresholdRaw, hparse', hopen, haccept, hthreshold, rfl⟩
    cases hparse.symm.trans hparse'
    cases hnumber.symm.trans hthreshold
    rw [hpredicate] at haccept ⊢
    exact ⟨hopen, haccept, hback.symm⟩
  · rintro ⟨hopen, haccept, rfl⟩
    refine ⟨_, _, hparse, hopen, hpredicate.symm ▸ haccept, hnumber, ?_⟩
    rw [hpredicate]
    exact hback

/-- The keepers have created all markets on a price that are the wallet's. -/
def OwnMarkets (rt : Runtime) (wallet : Pubkey) (symbol : PriceSymbol) (s : Chain) : Prop :=
  ∀ pda mk, s.market pda = some mk → mk.kind = 4 → mk.creator = wallet →
    ∃ v, Created rt wallet symbol s v ∧ v.marketPda = pda

/-- An account that a scan finds holds a market of a keeper. -/
theorem Scans.exists_stores {accounts : List (Pubkey × Bytes)} (hscan : Scans wallet s accounts)
    (hown : OwnMarkets rt wallet symbol s) {e : Pubkey × Bytes} (he : e ∈ accounts) :
    ∃ v mk, Created rt wallet symbol s v ∧ v.marketPda = e.1 ∧ s.market e.1 = some mk ∧
      e.2 = mk.data ∧ Stores wallet v mk := by
  obtain ⟨pda, data⟩ := e
  obtain ⟨haccount, hfilters⟩ := hscan.sound _ he
  cases haccount with
  | market mk hmk =>
    obtain ⟨hkind, hcreator⟩ := matchesFilters_iff.mp hfilters
    obtain ⟨v, hcreated, rfl⟩ := hown pda mk hmk hkind hcreator
    obtain ⟨mk', hmk', hstores⟩ := hcreated.stores
    cases hmk.symm.trans hmk'
    exact ⟨v, mk, hcreated, rfl, hmk, rfl, hstores⟩
  | other data hspace =>
    have hsize := hfilters.1
    rw [show data.length = Market.space from hsize] at hspace
    exact absurd hspace (by decide)

def IsOpen (s : Chain) (pda : Pubkey) : Prop := ∃ mk, s.market pda = some mk ∧ mk.status = statusOpen

/-- **Restart recovery is exact.** A keeper that starts tracks the open markets whose match id it
accepts as they were created, and the two keepers accept no match id in common. -/
theorem recovery_exact {accounts : List (Pubkey × Bytes)} (hs : Reachable rt s)
    (hclock : s.now.toInt ≤ maxSeconds) (hown : OwnMarkets rt wallet symbol s)
    (hscan : Scans wallet s accounts) :
    (∀ accept : JsString → Bool, ∃ tracked,
      recoverOpenPriceMarkets accept (.ok accounts) .empty = (tracked, none) ∧
      ∀ pda v, tracked.get pda = some v ↔ Created rt wallet symbol s v ∧ v.marketPda = pda ∧
        IsOpen s pda ∧ accept v.predicate.matchId = true) ∧
    ∀ matchId, ¬ (isIntervalMatchId symbol matchId = true ∧ isWeekMatchId matchId = true) := by
  refine ⟨fun accept => ?_, fun matchId => not_both_shapes⟩
  have hlegible : ∀ e ∈ accounts, Legible e.1 e.2 := by
    intro e he
    obtain ⟨v, mk, -, hpda, hmk, hdata, hstores⟩ := hscan.exists_stores hown he
    rw [← hpda, hdata]
    exact hstores.legible (settledBy hs hmk) hclock
  obtain ⟨tracked, hrun, hget⟩ :=
    @recoverMarkets_ok accept .empty accounts hscan.once hlegible fun _ _ => rfl
  refine ⟨tracked, hrun, fun pda v => ?_⟩
  rw [hget]
  constructor
  · rintro (hempty | ⟨data, hmem, htakes⟩)
    · cases hempty
    · obtain ⟨v', mk, hcreated, rfl, hmk, rfl, hstores⟩ := hscan.exists_stores hown hmem
      obtain ⟨hopen, haccept, rfl⟩ :=
        (hstores.takes_iff (hs.storable hmk) (settledBy hs hmk) hclock).mp htakes
      exact ⟨hcreated, rfl, ⟨mk, hmk, hopen⟩, haccept⟩
  · rintro ⟨hcreated, rfl, ⟨mk, hmk, hopen⟩, haccept⟩
    obtain ⟨mk', hmk', hstores⟩ := hcreated.stores
    cases hmk.symm.trans hmk'
    have hfilters := matchesFilters_iff.mpr ⟨hstores.kind, hstores.creator⟩
    refine .inr ⟨mk.data, hscan.complete _ mk hmk hfilters, ?_⟩
    exact (hstores.takes_iff (hs.storable hmk) (settledBy hs hmk) hclock).mpr ⟨hopen, haccept, rfl⟩

end Exact

namespace Sample
open Stoppage.Sample (alice genesis genesis_ok setUp call)

theorem solUsd_literal :
    (Utf16.ofString "SOL/USD").all (fun u => decide (Literal u)) = true := by decide +kernel

def solUsd : PriceSymbol where
  text := Utf16.ofString "SOL/USD"
  literal u hu := of_decide_eq_true (List.all_eq_true.mp solUsd_literal u hu)
  brief := by decide +kernel

/-- The call that creates the market over 66 dollars. -/
def createOver66 : Instruction :=
  .createMarket alice ⟨matchIdToBuffer symbol, 4, teamToBuffer [], 6600000000⟩ 1700001000
    pythValidatorId

def over66Opts : EnsureOpts := ⟨intervalMatchId solUsd.text 1700001000, 1700001000, 0⟩

theorem ensures_over66 : ∃ ix,
    ensurePriceMarket config (.ok 6640000000) (fun _ => .ok none) .empty over66Opts =
      .ok (.creates market ix) ∧
    MarketProgram.createMarketEntry runtime ix = some createOver66 := by
  have hthreshold : roundThresholdUsd 6640000000 over66Opts.deltaUsd = 6600000000 := by
    decide +kernel
  have hpredicate : pricePredicate over66Opts.matchId 6600000000 = market.predicate := by
    decide +kernel
  have haddress : Escrow.findMarketPdaFromPredicate config.runtime market.predicate =
      .ok above66 := by decide +kernel
  have hdate : isoOfSeconds over66Opts.referenceTs = .ok 1700001000000 := by decide +kernel
  have hbuilt : (buildCreateMarketIx runtime alice market.predicate 1700001000
      pythValidatorId).toOption.isSome = true := by decide +kernel
  obtain ⟨ix, hix⟩ : ∃ ix, buildCreateMarketIx runtime alice market.predicate 1700001000
      pythValidatorId = .ok ix := by
    cases hix : buildCreateMarketIx runtime alice market.predicate 1700001000 pythValidatorId with
    | error e =>
      rw [hix] at hbuilt
      cases hbuilt
    | ok ix => exact ⟨ix, rfl⟩
  have hseeds : market.predicate.seeds =
      .ok ⟨matchIdToBuffer symbol, 4, teamToBuffer [], 6600000000⟩ := by decide +kernel
  obtain ⟨seeds, closes, hseeds', hcloses, hentry⟩ := buildCreateMarketIx_ok hix
  cases hseeds.symm.trans hseeds'
  have hsame : closes = 1700001000 := by exact_mod_cast hcloses.symm
  refine ⟨ix, ?_, by rw [hentry, hsame]; rfl⟩
  have hempty : (OrderedMap.empty : OrderedMap Pubkey TrackedPriceMarket).get above66 = none := rfl
  rw [ensurePriceMarket]
  simp only [ok_bind, hthreshold, hpredicate, haddress, hempty, hdate]
  rw [if_neg (by decide)]
  show (buildCreateMarketIx runtime alice market.predicate 1700001000 pythValidatorId).bind _ = _
  rw [hix]
  rfl

theorem exists_over66 : ∃ s, Reachable runtime s ∧ s.now = 1700000000 ∧
    Created runtime alice solUsd s market ∧ IsOpen s above66 ∧
    ∀ pda, pda ≠ above66 → s.market pda = none := by
  have hrun : Action.runsTo runtime [setUp, call createOver66] genesis
      (fun s => ∃ mk ∈ s.market above66, mk.status = statusOpen) = true := by decide +kernel
  obtain ⟨s, hsteps, mk, hmk, hopen⟩ := steps_of_runsTo hrun
  obtain ⟨u, hset, hrest⟩ := Steps.cons_iff.mp hsteps
  have hcreate : exec runtime ⟨[createOver66], 0⟩ createOver66 u = .ok s := Steps.single_iff.mp hrest
  obtain ⟨ix, hensure, hentry⟩ := ensures_over66
  have hset' := exec_near (show exec runtime ⟨[.initializeProtocol alice 200], 0⟩
    (.initializeProtocol alice 200) genesis = .ok u from hset)
  have hcreate' := exec_near hcreate
  refine ⟨s, ⟨_, _, genesis_ok, hsteps⟩, hcreate'.now.trans hset'.now, ?_, ⟨mk, hmk, hopen⟩, ?_⟩
  · exact .intro config _ _ _ over66Opts ix createOver66 _ u s [] rfl rfl (.interval _) hensure
      (by decide) hentry hcreate (.nil s) (fun _ ha => absurd ha List.not_mem_nil)
  · intro pda hpda
    rw [hcreate'.market pda (fun h => hpda (Option.some.inj h).symm), hset'.market pda (fun h => by cases h)]
    rfl

end Sample

/-- The keeper of the rounds takes up the open market. -/
theorem recovery_exact_sample : ∃ s accounts tracked, Reachable Sample.runtime s ∧
    Scans Stoppage.Sample.alice s accounts ∧
    recoverOpenPriceMarkets (isIntervalMatchId Sample.solUsd) (.ok accounts) .empty =
      (tracked, none) ∧ tracked.get Sample.above66 = some Sample.market := by
  obtain ⟨s, hs, hnow, hcreated, ⟨mk, hmk, hopen⟩, hother⟩ := Sample.exists_over66
  obtain ⟨mk', hmk', hstores⟩ := hcreated.stores
  cases hmk.symm.trans hmk'
  have hfilters := matchesFilters_iff.mpr ⟨hstores.kind, hstores.creator⟩
  have honly : ∀ pda mk', s.market pda = some mk' → pda = Sample.above66 ∧ mk' = mk := by
    intro pda mk' h
    by_cases hpda : pda = Sample.above66
    · subst hpda
      exact ⟨rfl, Option.some.inj (h.symm.trans hmk)⟩
    · rw [hother pda hpda] at h
      cases h
  have hscan : Scans Stoppage.Sample.alice s [(Sample.above66, mk.data)] := by
    refine ⟨List.nodup_singleton _, ?_, ?_⟩
    · intro e he
      rw [List.mem_singleton.mp he]
      exact ⟨.market mk hmk, hfilters⟩
    · intro pda mk' h _
      obtain ⟨rfl, rfl⟩ := honly pda mk' h
      exact List.mem_singleton_self _
  have hown : OwnMarkets Sample.runtime Stoppage.Sample.alice Sample.solUsd s := by
    intro pda mk' h _ _
    exact ⟨Sample.market, hcreated, (honly pda mk' h).1.symm⟩
  obtain ⟨tracked, hrun, hget⟩ := (recovery_exact hs (by rw [hnow]; decide) hown hscan).1
    (isIntervalMatchId Sample.solUsd)
  exact ⟨s, _, tracked, hs, hscan, hrun,
    (hget _ _).mpr ⟨hcreated, rfl, ⟨mk, hmk, hopen⟩, by decide +kernel⟩⟩

end Stoppage.Keeper

import Stoppage.Receipt.Provenance

/-! # What a price market is settled on

A market bound to the price validator is settled by a receipt whose `validate_price` call read a
verified observation of the price receiver. The feed, the threshold and the reference time of that
call are the ones its caller passed: `price_binding` says what they determine, and
`settled_on_other_terms` that the terms of the market are not among the things compared.
-/

namespace Stoppage
open Fallible LittleEndian TransitionSystem MarketProgram SettlementProgram
set_option autoImplicit false

namespace PythValidator

/-! ## The observation -/

/-- An account that `validate_price` accepts as an observation for the arguments. -/
structure Observed (owner : Pubkey) (data : Bytes) (a : Args) : Prop where
  owner : owner = pythReceiverProgramId
  long : priceUpdateV2MinLen ≤ data.length
  discriminator : data.take 8 = priceUpdateV2Discriminator
  variant : data.getD (8 + 32) 0 ≤ 1
  feed : messageFeed data = a.feedId.1
  notBefore : a.referenceTs.toInt ≤ (messagePublishTime data).toInt
  notAfter : (messagePublishTime data).toInt ≤ a.referenceTs.toInt + a.maxStalenessSeconds.toNat

theorem validatePrice_ok {owner : Pubkey} {data : Bytes} {a : Args} {holds : Bool}
    (h : validatePrice owner data a = .ok holds) :
    Observed owner data a ∧ holds = decide (a.threshold ≤ messagePrice data) := by
  simp only [validatePrice, bind_eq_ok, require_eq_ok, pure_eq_ok, checkedAddInt_u32_eq_ok] at h
  obtain ⟨-, howner, -, hlong, -, hdisc, -, hvariant, -, hfeed, upper, hupper, -, hbefore, -,
    hafter, hholds⟩ := h
  rw [Int64.le_iff_toInt_le] at hbefore hafter
  rw [hupper] at hafter
  exact ⟨⟨howner, hlong, hdisc, hvariant, hfeed, hbefore, hafter⟩, hholds.symm⟩

/-- The call into `validate_price` with the arguments `a` on the account `update`. -/
structure Asks (data : Bytes) (accounts : List Address) (a : Args) (update : Address) : Prop where
  discriminator : data.take 8 = validatePriceDiscriminator
  decoded : Args.decode (data.drop 8) = some a
  account : accounts.head? = some update

theorem entry_ok {s : Chain} {data : Bytes} {accounts : List Address} {ret : Option ReturnData}
    (h : entry s data accounts = .ok ret) :
    ∃ a update, Asks data accounts a update ∧ Observed (s.owner update) (s.data update) a ∧
      ret = some (pythValidatorId, [if a.threshold ≤ messagePrice (s.data update) then 1 else 0]) := by
  simp only [entry, bind_eq_ok, require_eq_ok, getOr_eq_ok, pure_eq_ok] at h
  obtain ⟨-, hdisc, a, hdecode, update, hhead, holds, hvalid, rfl⟩ := h
  obtain ⟨hobserved, rfl⟩ := validatePrice_ok hvalid
  refine ⟨a, update, ⟨hdisc, hdecode, hhead⟩, hobserved, ?_⟩
  simp only [decide_eq_true_eq]

end PythValidator

/-! ## The verdict of the price validator -/

/-- `validate_price` was called on the account `update` with the arguments `a`, and its answer is
the outcome. -/
structure Priced (s : Chain) (data : Bytes) (accounts : List Address) (outcome : UInt8)
    (a : PythValidator.Args) (update : Address) : Prop where
  asks : PythValidator.Asks data accounts a update
  observed : PythValidator.Observed (s.owner update) (s.data update) a
  answer : outcome = sideYes ↔ a.threshold ≤ PythValidator.messagePrice (s.data update)

theorem exists_priced {rt : Runtime} {ctx : TxContext} {s : Chain} {data : Bytes}
    {accounts : List Address} {outcome : UInt8}
    (h : Verdict rt ctx s pythValidatorId data accounts outcome) :
    ∃ a update, Priced s data accounts outcome a update := by
  obtain ⟨b, bs, hinvoke, hb⟩ := h.answered
  rw [invoke, if_pos rfl] at hinvoke
  obtain ⟨a, update, hasks, hobserved, hret⟩ := PythValidator.entry_ok hinvoke
  refine ⟨a, update, hasks, hobserved, hb.symm.trans ?_⟩
  simp only [Option.some.injEq, Prod.mk.injEq, true_and, List.cons.injEq] at hret
  rw [hret.1]
  split
  · rename_i hle
    exact iff_of_true (by decide) hle
  · rename_i hlt
    exact iff_of_false (by decide) hlt

/-- `act`, executed in `w`, resolves `m` with the receipt `r` by a call of `validate_price` on the
account `update` with the arguments `a`. -/
def PricedBy (m : Pubkey) (w : Chain) (act : Action) (r : Resolution) (a : PythValidator.Args)
    (update : Address) : Prop :=
  ∃ ctx statement data accounts,
    act = .call ctx (.resolveMarket r.resolver (.market m) statement r.merkleRoot r.outcome data
      (.external pythValidatorId :: accounts)) ∧
    Priced w data accounts r.outcome a update

theorem Wrote.priced {rt : Runtime} {m : Pubkey} {w : Chain} {act : Action} {r : Resolution}
    (h : Wrote rt m w act r) (hvalidator : r.validatorProgram = pythValidatorId) :
    ∃ a update, PricedBy m w act r a update := by
  obtain ⟨ctx, statement, data, accounts, l, hact, -, hverdict⟩ := h.call
  rw [hvalidator] at hact hverdict
  obtain ⟨a, update, hasks, hobserved, hanswer⟩ := exists_priced hverdict
  -- The account is read as it was before the rent was paid.
  exact ⟨a, update, ctx, statement, data, accounts, hact, hasks, hobserved, hanswer⟩

/-- **What binds a price market.** The receipt that settles a market of the price validator was
written by a `validate_price` call on a verified observation of the feed and the window that the
call names, and the outcome is YES exactly when the price reached the threshold that the call
names; where that is the parameter of the market, exactly when the price reached the parameter. -/
theorem price_binding {rt : Runtime} {g u v : Chain} {before : List Action} {c : Action}
    {m : Pubkey} {mk : Market} (hg : Genesis g) (h : Steps (Step rt) g before u)
    (hmk : u.market m = some mk) (horacle : mk.oracle = pythValidatorId) (hsettle : Step rt u c v)
    (hc : c.opOn rt m = .settleFromProof) :
    ∃ r, u.resolution m = some r ∧ v.market m = some (settled mk r.outcome u.now) ∧
      ∃ pre act post w x a update, before = pre ++ act :: post ∧
        Steps (Step rt) g pre w ∧ Step rt w act x ∧ Steps (Step rt) x post u ∧
        PricedBy m w act r a update ∧
        (a.threshold.toInt = mk.paramU64.toNat → (r.outcome = sideYes ↔
          (mk.paramU64.toNat : ℤ) ≤ (PythValidator.messagePrice (w.data update)).toInt)) := by
  have hchange := hsettle.change m
  rw [hc] at hchange
  cases hchange with
  | settleFromProof mk₁ outcome r h1 _ _ hr _ ho hv hmarket =>
    cases market_inj hmk h1
    subst ho
    obtain ⟨pre, act, post, w, x, hbefore, hpre, hstep, hpost, hwrote⟩ :=
      receipt_provenance h (hg.resolution m) hr
    obtain ⟨a, update, hpriced⟩ := hwrote.priced (hv.trans horacle)
    refine ⟨r, hr, hmarket, pre, act, post, w, x, a, update, hbefore, hpre, hstep, hpost, hpriced,
      ?_⟩
    intro hthreshold
    obtain ⟨ctx, statement, data, accounts, -, hcall⟩ := hpriced
    rw [hcall.answer, Int64.le_iff_toInt_le, hthreshold]

namespace Sample

def feedId : List.Vector UInt8 32 :=
  ⟨[230, 45, 246, 200, 180, 168, 95, 225, 166, 125, 180, 77, 193, 45, 229, 219,
    51, 15, 122, 198, 107, 114, 220, 101, 138, 254, 223, 15, 74, 65, 91, 67], rfl⟩

def priceAccount : Pubkey :=
  ⟨[243, 67, 225, 204, 103, 86, 52, 231, 122, 89, 115, 89, 205, 246, 48, 15,
    47, 215, 52, 139, 10, 155, 7, 8, 33, 225, 92, 180, 0, 151, 172, 9], rfl⟩

/-- A fully verified update of the feed to 60000 dollars, published at 1700001005. -/
def priceUpdate : Bytes :=
  PythValidator.priceUpdateV2Discriminator ++ (List.replicate 32 0 ++ ([1] ++ (feedId.1 ++
    (encodeI64 6000000000000 ++ (List.replicate 12 0 ++ (encodeI64 1700001005 ++
      List.replicate 32 0))))))

/-- The update is posted a few seconds after the market has closed. -/
def posted : List Action :=
  [setUp, create 1700001000 pythValidatorId, .tick 1700001010,
    .write priceAccount ⟨pythReceiverProgramId, priceUpdate⟩]

/-- Asking the price validator for the first minute from the reference time on. -/
def ask (outcome : UInt8) (threshold : Int64) : Action :=
  let a : PythValidator.Args := ⟨feedId, threshold, 1700001000, 60⟩
  call (.resolveMarket carol (.market market) "" (List.Vector.replicate 32 0) outcome
    (PythValidator.validatePriceDiscriminator ++ a.encode)
    [.external pythValidatorId, .external priceAccount])

/-- The market is open, on the price above 65000 dollars, and the observed price is 60000. -/
def Observing (s : Chain) : Prop :=
  (s.market market).map (fun mk => (mk.kind, mk.status, mk.oracle, mk.paramU64)) =
    some (4, statusOpen, pythValidatorId, 6500000000000) ∧
  PythValidator.messagePrice (s.data (.external priceAccount)) = 6000000000000

instance : DecidablePred Observing := fun _ => inferInstanceAs (Decidable (_ ∧ _))

theorem Observing.market {s : Chain} (h : Observing s) : ∃ mk, s.market Sample.market = some mk ∧
    mk.kind = 4 ∧ mk.oracle = pythValidatorId ∧ mk.paramU64 = 6500000000000 := by
  obtain ⟨mk, hmk, hfields⟩ := Option.map_eq_some_iff.mp h.1
  simp only [Prod.mk.injEq] at hfields
  obtain ⟨hkind, -, horacle, hparam⟩ := hfields
  exact ⟨mk, hmk, hkind, horacle, hparam⟩

end Sample

theorem price_binding_sample :
    ∃ u v r w act a update, u.resolution Sample.market = some r ∧
      Step Sample.runtime u (Sample.settle 1) v ∧ Sample.Stands statusSettled sideNo v ∧
      PricedBy Sample.market w act r a update := by
  have hrun : Action.runsTo Sample.runtime Sample.posted Sample.genesis (fun s =>
      Sample.Observing s ∧ Action.runsTo Sample.runtime [Sample.ask 1 6500000000000] s (fun u =>
        Sample.Observing u ∧ Action.runsTo Sample.runtime [Sample.settle 1] u
          (Sample.Stands statusSettled sideNo) = true) = true) = true := by decide +kernel
  obtain ⟨s, hposted, -, hasked⟩ := steps_of_runsTo hrun
  obtain ⟨u, hask, hobserving, hsettled⟩ := steps_of_runsTo hasked
  obtain ⟨v, hsteps, hstands⟩ := steps_of_runsTo hsettled
  have hsettle := Steps.single_iff.mp hsteps
  obtain ⟨mk, hmk, -, horacle, -⟩ := hobserving.market
  obtain ⟨r, hr, -, -, act, -, w, -, a, update, -, -, -, -, hpriced, -⟩ :=
    price_binding Sample.genesis_ok (hposted.append hask) hmk horacle hsettle rfl
  exact ⟨u, v, r, w, act, a, update, hr, hsettle, hstands, hpriced⟩

/-- A price of 60000 dollars settles the market on 65000 dollars to YES: the receipt was asked for
a threshold of one unit. -/
theorem settled_on_other_terms :
    ∃ s t mk, Reachable Sample.runtime s ∧ s.market Sample.market = some mk ∧ mk.kind = 4 ∧
      mk.oracle = pythValidatorId ∧
      (PythValidator.messagePrice (s.data (.external Sample.priceAccount))).toInt <
        (mk.paramU64.toNat : ℤ) ∧
      Steps (Step Sample.runtime) s [Sample.ask 0 1, Sample.settle 0] t ∧
      Sample.Stands statusSettled sideYes t := by
  have hrun : Action.runsTo Sample.runtime Sample.posted Sample.genesis (fun s =>
      Sample.Observing s ∧ Action.runsTo Sample.runtime [Sample.ask 0 1, Sample.settle 0] s
        (Sample.Stands statusSettled sideYes) = true) = true := by decide +kernel
  obtain ⟨s, hposted, hobserving, hrest⟩ := steps_of_runsTo hrun
  obtain ⟨t, hsteps, hstands⟩ := steps_of_runsTo hrest
  obtain ⟨mk, hmk, hkind, horacle, hparam⟩ := hobserving.market
  have hprice : (PythValidator.messagePrice (s.data (.external Sample.priceAccount))).toInt <
      (mk.paramU64.toNat : ℤ) := by
    rw [hobserving.2, hparam]
    decide
  exact ⟨s, t, mk, ⟨_, _, Sample.genesis_ok, hposted⟩, hmk, hkind, horacle, hprice, hsteps,
    hstands⟩

end Stoppage

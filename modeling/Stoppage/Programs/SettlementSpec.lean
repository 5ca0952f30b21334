import Stoppage.Programs.Settlement
import Stoppage.Programs.MarketSpec

/-! # What `resolve_market` does, and what its receipt says

`resolveMarket_ok` inverts the instruction. `verifyResolutionReceipt_data` ties the byte offsets by
which the market program reads a receipt to the layout in which the settlement program writes it:
the check passes exactly for a receipt of the same market, outcome and validator.
-/

namespace Stoppage
open Fallible BalanceSheet LittleEndian
set_option autoImplicit false

/-! ## The receipt, byte by byte -/

namespace Resolution

/-- What the market program reads: discriminator, market, outcome and validator. -/
theorem fields_data (r : Resolution) :
    r.data.take 8 = discriminator ∧ slice r.data 8 32 = r.market.bytes ∧
      r.data.getD 40 0 = r.outcome ∧ slice r.data 41 32 = r.validatorProgram.bytes := by
  obtain ⟨hdisc, h8⟩ := read_field (n := 8) (List.drop_zero (l := r.data)) rfl
  obtain ⟨hmarket, h40⟩ := read_field h8 r.market.size
  obtain ⟨-, h41⟩ := read_field (n := 1) h40 rfl
  obtain ⟨hvalidator, -⟩ := read_field h41 r.validatorProgram.size
  exact ⟨hdisc, hmarket, getD_of_drop h40 0, hvalidator⟩

end Resolution

namespace MarketProgram

/-- **Reader and writer of the receipt agree.** -/
theorem verifyResolutionReceipt_data (r : Resolution) (m : Pubkey) (outcome : UInt8)
    (oracle : Pubkey) :
    verifyResolutionReceipt r.data m outcome oracle = .ok () ↔
      r.market = m ∧ r.outcome = outcome ∧ r.validatorProgram = oracle := by
  have hlen : 8 + 32 + 1 + 32 ≤ r.data.length := by
    rw [r.length_data, Resolution.space]
    omega
  obtain ⟨hdisc, hmarket, houtcome, hvalidator⟩ := r.fields_data
  simp only [verifyResolutionReceipt, bind_eq_ok, require_eq_ok, getOr_eq_ok, hmarket, houtcome,
    hvalidator, Pubkey.tryFrom_bytes, Option.some.injEq]
  constructor
  · rintro ⟨-, -, -, -, m', rfl, -, hm, -, ho, v, rfl, hv⟩
    exact ⟨hm, ho, hv⟩
  · rintro ⟨hm, ho, hv⟩
    exact ⟨(), hlen, (), hdisc, r.market, rfl, (), hm, (), ho, r.validatorProgram, rfl, hv⟩

end MarketProgram

/-! ## Who owns a derived account -/

section Owner
variable {α : Type} {o : Option α} {program : Pubkey}

theorem ite_isSome_eq_program (h : program ≠ systemProgramId) :
    (if o.isSome then program else systemProgramId) = program ↔ ∃ a, o = some a := by
  rw [← Option.isSome_iff_exists]
  split
  · rename_i hsome
    exact iff_of_true rfl hsome
  · rename_i hnone
    exact iff_of_false h.symm hnone

theorem ite_isSome_eq_system (h : program ≠ systemProgramId) :
    (if o.isSome then program else systemProgramId) = systemProgramId ↔ o = none := by
  rw [← Option.not_isSome_iff_eq_none]
  split
  · rename_i hsome
    exact iff_of_false h (not_not.mpr hsome)
  · rename_i hnone
    exact iff_of_true rfl hnone

end Owner

theorem owner_market_eq_market {s : Chain} {m : Pubkey} :
    s.owner (.market m) = marketProgramId ↔ ∃ mk, s.market m = some mk :=
  ite_isSome_eq_program (by decide)

theorem owner_market_eq_system {s : Chain} {m : Pubkey} :
    s.owner (.market m) = systemProgramId ↔ s.market m = none :=
  ite_isSome_eq_system (by decide)

theorem owner_resolution_eq_settlement {s : Chain} {m : Pubkey} :
    s.owner (.resolution m) = settlementProgramId ↔ ∃ r, s.resolution m = some r :=
  ite_isSome_eq_program (by decide)

theorem owner_resolution_eq_system {s : Chain} {m : Pubkey} :
    s.owner (.resolution m) = systemProgramId ↔ s.resolution m = none :=
  ite_isSome_eq_system (by decide)

theorem owner_strayResolution_eq_system {s : Chain} {k : Pubkey} :
    s.owner (.strayResolution k) = systemProgramId ↔ s.strayResolution k = none :=
  ite_isSome_eq_system (by decide)

theorem owner_config_eq_system {s : Chain} {k : Pubkey} :
    s.owner (.config k) = systemProgramId ↔ s.config k = none :=
  ite_isSome_eq_system (by decide)

theorem data_resolution {s : Chain} {m : Pubkey} {r : Resolution} (h : s.resolution m = some r) :
    s.data (.resolution m) = r.data := by
  simp only [Chain.data, h, Option.map_some, Option.getD_some]

/-! ## `settle_from_proof` and its receipt -/

namespace MarketProgram

theorem settleFromProof_receipt {m : Pubkey} {resolution : Address} {outcome : UInt8}
    {s t : Chain} (h : settleFromProof m resolution outcome s = .ok t) :
    ∃ mk r e, s.market m = some mk ∧ (mk.status = statusOpen ∨ mk.status = statusAwaiting) ∧
      (outcome = sideYes ∨ outcome = sideNo) ∧ resolution = .resolution m ∧
      s.resolution m = some r ∧ r.market = m ∧ r.outcome = outcome ∧
      r.validatorProgram = mk.oracle ∧
      t = { s with
        market := Function.update s.market m (some (settled mk outcome s.now))
        events := e } := by
  obtain ⟨mk, e, hmk, hout, haddr, howner, hcheck, hstatus, ht⟩ := settleFromProof_ok h
  obtain ⟨r, hr⟩ := owner_resolution_eq_settlement.mp howner
  rw [data_resolution hr, verifyResolutionReceipt_data] at hcheck
  exact ⟨mk, r, e, hmk, hstatus, hout, haddr, hr, hcheck.1, hcheck.2.1, hcheck.2.2, ht⟩

theorem settleFromProof_settles {m : Pubkey} {resolution : Address} {outcome : UInt8} {s t : Chain}
    (h : settleFromProof m resolution outcome s = .ok t) :
    ∃ mk, t.market m = some mk ∧ mk.status = statusSettled ∧ mk.outcome = outcome := by
  obtain ⟨mk, r, e, -, -, -, -, -, -, -, -, rfl⟩ := settleFromProof_receipt h
  exact ⟨_, Function.update_self .., rfl, rfl⟩

theorem settleFromProof_of {m : Pubkey} {outcome : UInt8} {s : Chain} {mk : Market}
    {r : Resolution} (hmk : s.market m = some mk)
    (hstatus : mk.status = statusOpen ∨ mk.status = statusAwaiting)
    (hout : outcome = sideYes ∨ outcome = sideNo) (hr : s.resolution m = some r)
    (hmarket : r.market = m) (houtcome : r.outcome = outcome)
    (hvalidator : r.validatorProgram = mk.oracle) :
    ∃ t, settleFromProof m (.resolution m) outcome s = .ok t ∧
      t.market m = some (settled mk outcome s.now) := by
  have howner := owner_resolution_eq_settlement.mpr ⟨r, hr⟩
  have hcheck : verifyResolutionReceipt (s.data (.resolution m)) m outcome mk.oracle = .ok () := by
    rw [data_resolution hr, verifyResolutionReceipt_data]
    exact ⟨hmarket, houtcome, hvalidator⟩
  rw [settleFromProof, Chain.loadMarket, getOr_eq_ok.mpr hmk, ok_bind, require_of hout, ok_bind,
    require_of howner, ok_bind, require_of rfl, ok_bind, hcheck, ok_bind, require_of hstatus]
  exact ⟨_, rfl, Function.update_self ..⟩

end MarketProgram

/-! ## `resolve_market` -/

namespace SettlementProgram

theorem setReceipt_now (s : Chain) (rt : Runtime) (a : Address) (r : Resolution) :
    (s.setReceipt rt a r).now = s.now := by cases a <;> rfl

theorem validatorKey_ok {remaining : List Address} {v : Pubkey}
    (h : validatorKey remaining = .ok v) : remaining = .external v :: remaining.tail := by
  unfold validatorKey at h
  split at h
  · cases h
  · cases h
    rfl
  · cases h

theorem validated_eq_decide {ret : ReturnData} {outcome : UInt8} :
    validated ret = decide (outcome = 0) ↔ (ret.2.headD 0 ≠ 0 ↔ outcome = 0) := decide_eq_decide

/-- The verdict behind a receipt: the call into the validator answered, from the validator
itself, with a first byte that is nonzero exactly for outcome YES. -/
structure Verdict (rt : Runtime) (ctx : TxContext) (s : Chain) (validator : Pubkey) (data : Bytes)
    (accounts : List Address) (outcome : UInt8) : Prop where
  answered : ∃ b bs, invoke rt ctx s validator data accounts = .ok (some (validator, b :: bs)) ∧
    (b ≠ 0 ↔ outcome = 0)

theorem verdict_of {rt : Runtime} {ctx : TxContext} {s : Chain} {validator : Pubkey}
    {data : Bytes} {accounts : List Address} {outcome : UInt8} {ret : Option ReturnData}
    {returnData : ReturnData} (hret : invoke rt ctx s validator data accounts = .ok ret)
    (hdata : getReturnData ret = some returnData) (hsource : returnData.1 = validator)
    (hmatch : validated returnData = decide (outcome = 0)) :
    Verdict rt ctx s validator data accounts outcome := by
  obtain ⟨hsome, hnonempty⟩ := Option.filter_eq_some_iff.mp hdata
  obtain ⟨source, bytes⟩ := returnData
  cases bytes with
  | nil => simp at hnonempty
  | cons b bs =>
    subst hsource
    exact ⟨b, bs, by rw [hret, hsome], validated_eq_decide.mp hmatch⟩

theorem Verdict.getReturnData {rt : Runtime} {ctx : TxContext} {s : Chain} {validator : Pubkey}
    {data : Bytes} {accounts : List Address} {outcome : UInt8}
    (h : Verdict rt ctx s validator data accounts outcome) :
    ∃ returnData, invoke rt ctx s validator data accounts = .ok (some returnData) ∧
      getReturnData (some returnData) = some returnData ∧ returnData.1 = validator ∧
      validated returnData = decide (outcome = 0) := by
  obtain ⟨b, bs, hinvoke, hb⟩ := h.answered
  exact ⟨(validator, b :: bs), hinvoke, rfl, rfl, validated_eq_decide.mpr hb⟩

theorem invoke_attestationValidator (rt : Runtime) (ctx : TxContext) (s : Chain) (data : Bytes)
    (accounts : List Address) :
    invoke rt ctx s attestationValidatorId data accounts =
      AttestationValidator.entry ctx s data accounts := by
  rw [invoke, if_neg (by decide), if_pos rfl]

theorem verdict_iff {rt : Runtime} {ctx : TxContext} {s : Chain} {validator : Pubkey}
    {data : Bytes} {accounts : List Address} {outcome : UInt8} {holds : Bool}
    (h : invoke rt ctx s validator data accounts =
      .ok (some (validator, [if holds then 1 else 0]))) :
    Verdict rt ctx s validator data accounts outcome ↔ (holds = true ↔ outcome = 0) := by
  have hbyte : (if holds then (1 : UInt8) else 0) ≠ 0 ↔ holds = true := by
    cases holds <;> decide
  constructor
  · intro hverdict
    obtain ⟨b, bs, hinvoke, hb⟩ := hverdict.answered
    cases h.symm.trans hinvoke
    rw [← hb, hbyte]
  · intro houtcome
    exact ⟨_, [], h, hbyte.trans houtcome⟩

/-- On whatever account of the market program it was called. -/
theorem resolveMarket_inv {rt : Runtime} {ctx : TxContext} {resolver : Pubkey} {a : Address}
    {statement : String} {root : List.Vector UInt8 32} {outcome : UInt8} {data : Bytes}
    {remaining : List Address} {s t : Chain}
    (h : resolveMarket rt ctx resolver a statement root outcome data remaining s = .ok t) :
    ∃ l validator accounts, s.owner (rt.receipt a) = systemProgramId ∧ outcome ≤ 1 ∧
      s.owner a = marketProgramId ∧ remaining = .external validator :: accounts ∧
      s.systemTransfer resolver (rt.receipt a)
        (s.rentDue rt (rt.receipt a) Resolution.space) = .ok { s with lamports := l } ∧
      Verdict rt ctx { s with lamports := l } validator data accounts outcome ∧
      t = (Chain.setReceipt { s with lamports := l } rt a
        { market := rt.key a, outcome, validatorProgram := validator, merkleRoot := root, resolver,
          resolvedAt := s.now, bump := rt.bump (rt.receipt a) }).emit
        (.marketResolved (rt.key a) (rt.receipt a) statement validator root outcome root resolver
          s.now true) := by
  simp only [resolveMarket, bind_eq_ok, require_eq_ok, getOr_eq_ok, pure_eq_ok] at h
  obtain ⟨u, hu, -, hout, -, howner, v, hv, ret, hret, returnData, hdata, -, hsource, -, hmatch,
    rfl⟩ := h
  simp only [Chain.initAccount, bind_eq_ok, require_eq_ok] at hu
  obtain ⟨-, hunused, hpaid⟩ := hu
  obtain ⟨l, -, -, rfl⟩ := Chain.systemTransfer_ok hpaid
  have hrem := validatorKey_ok hv
  have hsame : Chain.owner { s with lamports := l } a = s.owner a := by cases a <;> rfl
  rw [setReceipt_now]
  exact ⟨l, v, remaining.tail, hunused, hout, hsame.symm.trans howner, hrem, hpaid,
    verdict_of hret hdata hsource hmatch, rfl⟩

theorem resolveMarket_ok {rt : Runtime} {ctx : TxContext} {resolver m : Pubkey}
    {statement : String} {root : List.Vector UInt8 32} {outcome : UInt8} {data : Bytes}
    {remaining : List Address} {s t : Chain}
    (h : resolveMarket rt ctx resolver (.market m) statement root outcome data remaining s =
      .ok t) :
    ∃ l validator accounts e, s.resolution m = none ∧ outcome ≤ 1 ∧
      (∃ mk, s.market m = some mk) ∧ remaining = .external validator :: accounts ∧
      s.systemTransfer resolver (.resolution m)
        (s.rentDue rt (.resolution m) Resolution.space) = .ok { s with lamports := l } ∧
      Verdict rt ctx { s with lamports := l } validator data accounts outcome ∧
      t = { s with
        lamports := l
        resolution := Function.update s.resolution m (some
          { market := m, outcome, validatorProgram := validator, merkleRoot := root, resolver,
            resolvedAt := s.now, bump := rt.bump (.resolution m) })
        events := e } := by
  obtain ⟨l, v, accounts, hunused, hout, howner, hrem, hpaid, hverdict, rfl⟩ := resolveMarket_inv h
  exact ⟨l, v, accounts, _, owner_resolution_eq_system.mp hunused, hout,
    owner_market_eq_market.mp howner, hrem, hpaid, hverdict, rfl⟩

/-- Of an account that is no market there is a receipt too, but none that a market could have. -/
theorem resolveMarket_stray {rt : Runtime} {ctx : TxContext} {resolver : Pubkey} {a : Address}
    {statement : String} {root : List.Vector UInt8 32} {outcome : UInt8} {data : Bytes}
    {remaining : List Address} {s t : Chain} (ha : ∀ m, a ≠ .market m)
    (h : resolveMarket rt ctx resolver a statement root outcome data remaining s = .ok t) :
    ∃ l r, s.systemTransfer resolver (.strayResolution (rt.key a))
        (s.rentDue rt (.strayResolution (rt.key a)) Resolution.space) =
          .ok { s with lamports := l } ∧ s.strayResolution (rt.key a) = none ∧ outcome ≤ 1 ∧
      t = Chain.emit { s with
        lamports := l
        strayResolution := Function.update s.strayResolution (rt.key a) (some r) }
        (.marketResolved (rt.key a) (.strayResolution (rt.key a)) statement r.validatorProgram root
          outcome root resolver s.now true) ∧
      r.outcome = outcome ∧ r.merkleRoot = root ∧ r.resolver = resolver ∧ r.resolvedAt = s.now := by
  obtain ⟨l, v, accounts, hunused, hout, -, -, hpaid, -, rfl⟩ := resolveMarket_inv h
  cases a with
  | market m => exact absurd rfl (ha m)
  | _ =>
    exact ⟨l, _, hpaid, owner_strayResolution_eq_system.mp hunused, hout, rfl, rfl, rfl, rfl, rfl⟩

theorem resolveMarket_stray_aside {rt : Runtime} {ctx : TxContext} {resolver : Pubkey} {a : Address}
    {statement : String} {root : List.Vector UInt8 32} {outcome : UInt8} {data : Bytes}
    {remaining : List Address} {s t : Chain} (ha : ∀ m, a ≠ .market m)
    (h : resolveMarket rt ctx resolver a statement root outcome data remaining s = .ok t) :
    Aside s t := by
  obtain ⟨l, r, hpaid, -, -, rfl, -⟩ := resolveMarket_stray ha h
  exact ((Aside.of_transfer hpaid).stray _).keep _ _ _ _

/-- The first resolution of a market, with the rent paid and a validator that agrees. -/
theorem resolveMarket_of {rt : Runtime} {ctx : TxContext} {resolver m validator : Pubkey}
    (statement : String) (root : List.Vector UInt8 32) {outcome : UInt8} {data : Bytes}
    {accounts : List Address} {s u : Chain} {mk : Market} (hnone : s.resolution m = none)
    (hout : outcome ≤ 1) (hmk : s.market m = some mk)
    (hpaid : s.systemTransfer resolver (.resolution m)
      (s.rentDue rt (.resolution m) Resolution.space) = .ok u)
    (hverdict : Verdict rt ctx u validator data accounts outcome) :
    ∃ t, resolveMarket rt ctx resolver (.market m) statement root outcome data
        (.external validator :: accounts) s = .ok t ∧ t.market m = some mk ∧
      t.resolution m = some
        { market := m, outcome, validatorProgram := validator, merkleRoot := root, resolver,
          resolvedAt := s.now, bump := rt.bump (.resolution m) } := by
  have haside := Aside.of_transfer hpaid
  have hinit : s.initAccount rt resolver (rt.receipt (.market m)) Resolution.space = .ok u := by
    show s.initAccount rt resolver (.resolution m) _ = _
    rw [Chain.initAccount, require_of (owner_resolution_eq_system.mpr hnone), ok_bind, hpaid]
  have hu : u.market m = some mk := by rw [haside.market, hmk]
  have howner : u.owner (.market m) = marketProgramId := owner_market_eq_market.mpr ⟨mk, hu⟩
  obtain ⟨returnData, hinvoke, hdata, hsource, hmatch⟩ := hverdict.getReturnData
  rw [resolveMarket, hinit, ok_bind, require_of hout, ok_bind, require_of howner, ok_bind,
    validatorKey, ok_bind, List.tail_cons, hinvoke, ok_bind, hdata, getOr_some, ok_bind,
    require_of hsource, ok_bind, require_of hmatch, ok_bind, haside.now]
  exact ⟨_, rfl, hu, Function.update_self ..⟩

end SettlementProgram

theorem AttestationValidator.initializeConfig_ok {rt : Runtime} {payer authority : Pubkey}
    {s t : Chain} (h : initializeConfig rt payer authority s = .ok t) :
    ∃ l, s.config authority = none ∧ Aside s { s with lamports := l } ∧
      t = { s with
        lamports := l
        config := Function.update s.config authority (some { authority }) } := by
  simp only [initializeConfig, bind_eq_ok, pure_eq_ok] at h
  obtain ⟨u, hu, rfl⟩ := h
  have haside := Aside.of_init hu
  obtain ⟨l, howner, -, rfl⟩ := Chain.initAccount_ok hu
  exact ⟨l, owner_config_eq_system.mp howner, haside, rfl⟩

/-- Whoever pays the rent pins a key that is not pinned. -/
theorem AttestationValidator.initializeConfig_of {rt : Runtime} {payer authority : Pubkey}
    {s u : Chain} (hnone : s.config authority = none)
    (hpaid : s.systemTransfer payer (.config authority)
      (s.rentDue rt (.config authority) Config.space) = .ok u) :
    initializeConfig rt payer authority s =
      .ok { u with config := Function.update u.config authority (some { authority }) } := by
  rw [initializeConfig, Chain.initAccount, require_of (owner_config_eq_system.mpr hnone), ok_bind,
    hpaid]
  rfl

end Stoppage

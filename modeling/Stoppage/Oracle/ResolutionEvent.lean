import Stoppage.Oracle.AttestationBinding
import Stoppage.Oracle.PriceHistory

/-! # What the resolution event says

`resolve_market` emits the statement and the root that its caller passed, next to the verdict of
the validator on the instruction data that the caller passed as well. Nothing ties the two, so the
event identifies the data exactly as far as the validator does: `event_identifies_iff`.
-/

namespace Stoppage
open Fallible LittleEndian TransitionSystem SettlementProgram
set_option autoImplicit false

/-! ## The event -/

/-- What an event of a resolution says about the claim: statement, root and outcome. -/
def Event.claim : Event → Option (String × List.Vector UInt8 32 × UInt8)
  | .marketResolved _ _ statement _ merkleRoot outcome _ _ _ _ =>
    some (statement, merkleRoot, outcome)
  | _ => none

def Event.validator : Event → Option Pubkey
  | .marketResolved _ _ _ validatorProgram _ _ _ _ _ _ => some validatorProgram
  | _ => none

/-- The event repeats what the caller passed and names the validator it passed. -/
theorem resolveMarket_event {rt : Runtime} {ctx : TxContext} {resolver m : Pubkey}
    {statement : String} {root : List.Vector UInt8 32} {outcome : UInt8} {data : Bytes}
    {remaining : List Address} {s t : Chain}
    (h : resolveMarket rt ctx resolver (.market m) statement root outcome data remaining s = .ok t) :
    ∃ validator accounts, remaining = .external validator :: accounts ∧
      t.events = s.events ++ [.marketResolved m (.resolution m) statement validator root outcome
        root resolver s.now true] := by
  simp only [resolveMarket, bind_eq_ok, require_eq_ok, getOr_eq_ok, pure_eq_ok] at h
  obtain ⟨u, hu, -, -, -, -, v, hv, -, -, -, -, -, -, -, -, rfl⟩ := h
  obtain ⟨l, -, -, rfl⟩ := Chain.initAccount_ok hu
  exact ⟨v, remaining.tail, validatorKey_ok hv, rfl⟩

/-! ## Calls and answers -/

/-- Some `resolve_market` on a market bound to the validator passes it the data, and its event
makes the claim. -/
def Reports (rt : Runtime) (validator : Pubkey) (data : Bytes)
    (claim : String × List.Vector UInt8 32 × UInt8) : Prop :=
  ∃ s ctx resolver m mk statement root outcome remaining t e, Reachable rt s ∧
    s.market m = some mk ∧ mk.oracle = validator ∧
    resolveMarket rt ctx resolver (.market m) statement root outcome data remaining s = .ok t ∧
    t.events = s.events ++ [e] ∧ e.validator = some validator ∧ e.claim = some claim

/-- Where a market bound to the validator can be resolved, the validator answers the data with the
outcome. -/
def Answered (rt : Runtime) (validator : Pubkey) (outcome : UInt8) (data : Bytes) : Prop :=
  ∃ s ctx resolver m mk accounts u, Reachable rt s ∧ s.market m = some mk ∧
    mk.oracle = validator ∧ s.resolution m = none ∧ outcome ≤ 1 ∧
    s.systemTransfer resolver (.resolution m)
      (s.rentDue rt (.resolution m) Resolution.space) = .ok u ∧
    Verdict rt ctx u validator data accounts outcome

theorem Reports.answered {rt : Runtime} {validator : Pubkey} {data : Bytes} {statement : String}
    {root : List.Vector UInt8 32} {outcome : UInt8}
    (h : Reports rt validator data (statement, root, outcome)) :
    Answered rt validator outcome data := by
  obtain ⟨s, ctx, resolver, m, mk, st, ro, o, remaining, t, e, hs, hmk, horacle, hresolve, he,
    hvalidator, hclaim⟩ := h
  obtain ⟨v, accounts, hrem, hevents⟩ := resolveMarket_event hresolve
  cases List.append_cancel_left (he.symm.trans hevents)
  cases hvalidator
  cases hclaim
  obtain ⟨l, v', accounts', -, hnone, hout, -, hrem', hpaid, hverdict, -⟩ :=
    resolveMarket_ok hresolve
  cases hrem.symm.trans hrem'
  exact ⟨s, ctx, resolver, m, mk, _, _, hs, hmk, horacle, hnone, hout, hpaid, hverdict⟩

/-- The statement and the root are the caller's to choose. -/
theorem Answered.reports {rt : Runtime} {validator : Pubkey} {data : Bytes} {outcome : UInt8}
    (h : Answered rt validator outcome data) (statement : String) (root : List.Vector UInt8 32) :
    Reports rt validator data (statement, root, outcome) := by
  obtain ⟨s, ctx, resolver, m, mk, accounts, u, hs, hmk, horacle, hnone, hout, hpaid, hverdict⟩ := h
  obtain ⟨t, ht, -, -⟩ := resolveMarket_of statement root hnone hout hmk hpaid hverdict
  obtain ⟨v, accounts', hrem, hevents⟩ := resolveMarket_event ht
  cases hrem
  exact ⟨s, ctx, resolver, m, mk, statement, root, outcome, _, t, _, hs, hmk, horacle, ht, hevents,
    rfl, rfl⟩

/-! ## Data after the arguments -/

theorem take_append_of_take {bs xs : Bytes} {n : ℕ} (h : bs.take n = xs) (hn : xs.length = n)
    (ys : Bytes) : (bs ++ ys).take n = xs ∧ (bs ++ ys).drop n = bs.drop n ++ ys := by
  have hlen : n ≤ bs.length := by
    have := congrArg List.length h
    rw [List.length_take] at this
    omega
  rw [List.take_append_of_le_length hlen, List.drop_append_of_le_length hlen]
  exact ⟨h, rfl⟩

theorem PythValidator.Args.decode_append {bs : Bytes} {a : Args} (h : decode bs = some a)
    (xs : Bytes) : decode (bs ++ xs) = some a := by
  unfold decode at h
  split at h
  · rename_i hlong
    have hlong' : 32 + 8 + 8 + 4 ≤ (bs ++ xs).length := by
      rw [List.length_append]
      omega
    have hfeed : (bs ++ xs).take 32 = bs.take 32 := List.take_append_of_le_length (by omega)
    rw [decode, dif_pos hlong']
    simp only [slice_append (show 32 + 8 ≤ bs.length by omega),
      slice_append (show 40 + 8 ≤ bs.length by omega),
      slice_append (show 48 + 4 ≤ bs.length by omega), hfeed]
    exact h
  · cases h

theorem AttestationValidator.Args.decode_append {bs : Bytes} {a : Args} (h : decode bs = some a)
    (xs : Bytes) : decode (bs ++ xs) = some a := by
  unfold decode at h
  split at h
  · rename_i hlong
    have hlong' : 16 + 4 + 1 + 8 + 8 + 8 + 8 + 4 ≤ (bs ++ xs).length := by
      rw [List.length_append]
      omega
    have hfixture : (bs ++ xs).take 16 = bs.take 16 := List.take_append_of_le_length (by omega)
    have hop : (bs ++ xs).getD 20 0 = bs.getD 20 0 := List.getD_append _ _ _ _ (by omega)
    rw [decode, dif_pos hlong']
    simp only [slice_append (show 16 + 4 ≤ bs.length by omega),
      slice_append (show 21 + 8 ≤ bs.length by omega),
      slice_append (show 29 + 8 ≤ bs.length by omega),
      slice_append (show 37 + 8 ≤ bs.length by omega),
      slice_append (show 45 + 8 ≤ bs.length by omega),
      slice_append (show 53 + 4 ≤ bs.length by omega), hfixture, hop]
    exact h
  · cases h

theorem PythValidator.entry_append {s : Chain} {data : Bytes} {accounts : List Address}
    {ret : Option ReturnData} (h : entry s data accounts = .ok ret) (xs : Bytes) :
    entry s (data ++ xs) accounts = .ok ret := by
  simp only [entry, bind_eq_ok, require_eq_ok, getOr_eq_ok] at h
  obtain ⟨_, hdisc, a, hdecode, hrest⟩ := h
  obtain ⟨htake, hdrop⟩ := take_append_of_take hdisc rfl xs
  simp only [entry, bind_eq_ok, require_eq_ok, getOr_eq_ok]
  exact ⟨(), htake, a, hdrop ▸ Args.decode_append hdecode xs, hrest⟩

theorem AttestationValidator.entry_append {ctx : TxContext} {s : Chain} {data : Bytes}
    {accounts : List Address} {ret : Option ReturnData} (h : entry ctx s data accounts = .ok ret)
    (xs : Bytes) : entry ctx s (data ++ xs) accounts = .ok ret := by
  simp only [entry, bind_eq_ok, require_eq_ok, getOr_eq_ok] at h
  obtain ⟨_, hdisc, a, hdecode, hrest⟩ := h
  obtain ⟨htake, hdrop⟩ := take_append_of_take hdisc rfl xs
  simp only [entry, bind_eq_ok, require_eq_ok, getOr_eq_ok]
  exact ⟨(), htake, a, hdrop ▸ Args.decode_append hdecode xs, hrest⟩

/-- Neither validator of the repository reads past its arguments. -/
theorem Answered.append {rt : Runtime} {validator : Pubkey} {outcome : UInt8} {data : Bytes}
    (h : Answered rt validator outcome data)
    (hown : validator = pythValidatorId ∨ validator = attestationValidatorId) (xs : Bytes) :
    Answered rt validator outcome (data ++ xs) := by
  obtain ⟨s, ctx, resolver, m, mk, accounts, u, hs, hmk, horacle, hnone, hout, hpaid, hverdict⟩ := h
  obtain ⟨b, bs, hinvoke, hb⟩ := hverdict.answered
  have hinvoke' : invoke rt ctx u validator (data ++ xs) accounts =
      .ok (some (validator, b :: bs)) := by
    rcases hown with hpyth | hattested
    · rw [invoke, if_pos hpyth] at hinvoke ⊢
      exact PythValidator.entry_append hinvoke xs
    · have hne : validator ≠ pythValidatorId := by
        rw [hattested]
        decide
      rw [invoke, if_neg hne, if_pos hattested] at hinvoke ⊢
      exact AttestationValidator.entry_append hinvoke xs
  exact ⟨s, ctx, resolver, m, mk, accounts, u, hs, hmk, horacle, hnone, hout, hpaid,
    ⟨b, bs, hinvoke', hb⟩⟩

/-! ## What the event identifies -/

/-- Resolutions of markets bound to the validator whose events make the same claim passed the
validator the same data. -/
def Identifies (rt : Runtime) (validator : Pubkey) : Prop :=
  ∀ claim data data', Reports rt validator data claim → Reports rt validator data' claim →
    data = data'

/-- **What the resolution event identifies.** The event identifies the instruction data exactly
when the validator answers each outcome for one instruction data at most; with a validator of the
repository, exactly when it answers nothing at all. -/
theorem event_identifies_iff (rt : Runtime) (validator : Pubkey) :
    (Identifies rt validator ↔
      ∀ outcome data data', Answered rt validator outcome data →
        Answered rt validator outcome data' → data = data') ∧
    (validator = pythValidatorId ∨ validator = attestationValidatorId →
      (Identifies rt validator ↔ ∀ outcome data, ¬ Answered rt validator outcome data)) := by
  have hiff : Identifies rt validator ↔
      ∀ outcome data data', Answered rt validator outcome data →
        Answered rt validator outcome data' → data = data' := by
    constructor
    · intro h outcome data data' hd hd'
      let root : List.Vector UInt8 32 := List.Vector.replicate 32 0
      exact h ("", root, outcome) data data' (hd.reports "" root) (hd'.reports "" root)
    · rintro h ⟨statement, root, outcome⟩ data data' hd hd'
      exact h outcome data data' hd.answered hd'.answered
  refine ⟨hiff, fun hown => hiff.trans ⟨?_, ?_⟩⟩
  · intro h outcome data hd
    have hlen := congrArg List.length (h outcome data (data ++ [0]) hd (hd.append hown [0]))
    rw [List.length_append, List.length_singleton] at hlen
    omega
  · intro h outcome data data' hd
    exact absurd hd (h outcome data)

namespace Sample

def claimArgs (threshold : Int64) : PythValidator.Args := { firstMinute with threshold }

/-- Asking for YES under the statement of the market, for some threshold and account. -/
def claimYes (threshold : Int64) (account : Pubkey) : Action :=
  call (.resolveMarket carol (.market market) "BTC/USD >= 65000" (List.Vector.replicate 32 0) sideYes
    (PythValidator.validatePriceDiscriminator ++ (claimArgs threshold).encode)
    [.external pythValidatorId, .external account])

theorem claimYes_event {s t : Chain} {threshold : Int64} {account : Pubkey}
    (h : Step runtime s (claimYes threshold account) t) :
    t.events = s.events ++ [.marketResolved market (.resolution market) "BTC/USD >= 65000"
      pythValidatorId (List.Vector.replicate 32 0) sideYes (List.Vector.replicate 32 0) carol
      s.now true] := by
  obtain ⟨validator, accounts, hrem, hevents⟩ := resolveMarket_event h
  cases hrem
  exact hevents

end Sample

/-- One event for two claims: a price of 66000 dollars against the threshold of the market, and a
price of 60000 dollars against a threshold of one unit. -/
theorem one_event_two_claims :
    ∃ s t t' mk e, Reachable Sample.runtime s ∧ s.market Sample.market = some mk ∧
      mk.oracle = pythValidatorId ∧ mk.paramU64 = 6500000000000 ∧
      (PythValidator.messagePrice (s.data (.external Sample.priceAccount))).toInt <
        (mk.paramU64.toNat : ℤ) ∧
      Step Sample.runtime s (Sample.claimYes 6500000000000 Sample.laterAccount) t ∧
      Step Sample.runtime s (Sample.claimYes 1 Sample.priceAccount) t' ∧
      t.events = s.events ++ [e] ∧ t'.events = s.events ++ [e] ∧
      (Sample.claimArgs 6500000000000).encode ≠ (Sample.claimArgs 1).encode := by
  have hrun : Action.runsTo Sample.runtime Sample.bothPosted Sample.genesis (fun s =>
      Sample.Observing s ∧
      Action.runsTo Sample.runtime [Sample.claimYes 6500000000000 Sample.laterAccount] s
        (fun _ => True) = true ∧
      Action.runsTo Sample.runtime [Sample.claimYes 1 Sample.priceAccount] s
        (fun _ => True) = true) = true := by decide +kernel
  obtain ⟨s, hposted, hobserving, hhonest, hother⟩ := steps_of_runsTo hrun
  obtain ⟨t, hsteps, -⟩ := steps_of_runsTo hhonest
  obtain ⟨t', hsteps', -⟩ := steps_of_runsTo hother
  have ht := Steps.single_iff.mp hsteps
  have ht' := Steps.single_iff.mp hsteps'
  obtain ⟨mk, hmk, -, horacle, hparam⟩ := hobserving.market
  refine ⟨s, t, t', mk, _, ⟨_, _, Sample.genesis_ok, hposted⟩, hmk, horacle, hparam, ?_, ht, ht',
    Sample.claimYes_event ht, Sample.claimYes_event ht', by decide⟩
  rw [hobserving.2, hparam]
  decide

end Stoppage

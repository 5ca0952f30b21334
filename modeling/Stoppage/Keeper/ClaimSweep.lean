import Stoppage.Keeper.BondSweep
import Stoppage.Lib.Visits

/-! # The claims of a keeper

`sweepClaims` of `apps/agent/src/loop.ts`, `claimReceipts` of `apps/agent/src/weekKeeper.ts` and
`claimMarket` of `scripts/housekeep.ts`: of each market the creator's bond and the position of the
wallet, each in a transaction of its own. Left out are the entries of the ledger and of the log, and
the pause between two markets.
-/

namespace Stoppage.Keeper
open Fallible BalanceSheet Sdk Escrow MarketProgram TransitionSystem
set_option autoImplicit false

/-! ## One market -/

/-- What the calls for one market come to. -/
structure ClaimCalls where
  /-- The read of the market's account. -/
  market : Except SdkError Unit
  bond : SweepCalls
  /-- The read of the position's account. -/
  position : Except SdkError Unit
  payout : SweepCalls

structure Sweeper where
  wallet : Pubkey
  dryRun : Bool
  /-- Whether a market that cannot be read ends the sweep. -/
  throws : Bool

/-- A transaction that is sent is executed; an error is caught by the caller. -/
def sendClaimIx (rt : Runtime) (calls : SweepCalls) (ix : Instruction) (s : Chain) : Chain :=
  match calls.getLatestBlockhash, calls.sendRawTransaction with
  | .ok _, .ok _ => (execTx rt [ix] s).toOption.getD s
  | _, _ => s

/-- Whether `getAccountInfo` finds an account at the address of a position. -/
def positionInfo (s : Chain) (m owner : Pubkey) : Bool :=
  (s.position (m, owner)).isSome || decide (s.lamports (.position m owner) ≠ 0)

/-- The claim of the bond. -/
def claimBondOf (rt : Runtime) (w : Sweeper) (calls : SweepCalls) (market : Escrow.Market)
    (m : Pubkey) (s : Chain) : Chain :=
  if market.creator = w.wallet ∧ market.bondClaimed = false ∧ w.dryRun = false then
    sendClaimIx rt calls (.claimBond w.wallet m) s
  else s

/-- The claim of the position. -/
def claimPositionOf (rt : Runtime) (w : Sweeper) (calls : SweepCalls) (m : Pubkey) (s : Chain) :
    Chain :=
  if positionInfo s m w.wallet = true ∧ w.dryRun = false then
    sendClaimIx rt calls (.claim w.wallet m) s
  else s

/-- What the sweeps have in common: the chain after one market, and whether it threw. -/
def claimMarket (rt : Runtime) (w : Sweeper) (calls : ClaimCalls) (m : Pubkey) (s : Chain) :
    Chain × Except SdkError Unit :=
  match calls.market with
  | .error e => (s, if w.throws then .error e else .ok ())
  | .ok _ =>
    match (accountInfo s m).map fun data => parseMarket data m with
    | some (.ok market) =>
      if market.status ≠ .settled ∧ market.status ≠ .void then (s, .ok ())
      else
        let s := claimBondOf rt w calls.bond market m s
        match calls.position with
        | .error e => (s, .error e)
        | .ok _ => (claimPositionOf rt w calls.payout m s, .ok ())
    | _ => (s, .ok ())

/-- `sweepClaims` of the agent, which does not come here in a dry run. -/
def sweepClaims (rt : Runtime) (wallet : Pubkey) : ClaimCalls → Pubkey → Chain →
    Chain × Except SdkError Unit :=
  claimMarket rt ⟨wallet, false, false⟩

/-- `claimMarket` of `scripts/housekeep.ts` -/
def housekeepClaim (rt : Runtime) (wallet : Pubkey) (dryRun : Bool) : ClaimCalls → Pubkey → Chain →
    Chain × Except SdkError Unit :=
  claimMarket rt ⟨wallet, dryRun, true⟩

/-- The claims of `claimReceipts` of the week keeper, which reads the account of the position of a
market that is not over too. -/
def weekClaims (rt : Runtime) (wallet : Pubkey) (dryRun : Bool) (calls : ClaimCalls) (m : Pubkey)
    (s : Chain) : Chain × Except SdkError Unit :=
  let w : Sweeper := ⟨wallet, dryRun, false⟩
  match calls.market with
  | .error _ => (s, .ok ())
  | .ok _ =>
    match (accountInfo s m).map fun data => parseMarket data m with
    | some (.ok market) =>
      let ended : Bool := decide (market.status = .settled ∨ market.status = .void)
      let s := if ended then claimBondOf rt w calls.bond market m s else s
      match calls.position with
      | .error e => (s, .error e)
      | .ok _ => (if ended then claimPositionOf rt w calls.payout m s else s, .ok ())
    | _ => (s, .ok ())

/-- One market after the other; an exception ends the sweep. -/
def sweep (rt : Runtime) (w : Sweeper) (calls : Pubkey → ClaimCalls) :
    List Pubkey → Chain → Chain × Except SdkError Unit
  | [], s => (s, .ok ())
  | m :: ms, s =>
    match claimMarket rt w (calls m) m s with
    | (s, .ok _) => sweep rt w calls ms s
    | (s, .error e) => (s, .error e)

/-! ## What there is to collect -/

/-- What decides about the claims of a wallet on a market. -/
structure Spot where
  market : Option Stoppage.Market
  position : Option Position
  vault : UInt64

def spot (wallet m : Pubkey) (s : Chain) : Spot :=
  ⟨s.market m, s.position (m, wallet), s.lamports (.market m)⟩

namespace Spot

/-- The market is over, and the SDK can read it. -/
def legible (p : Spot) : Bool :=
  p.market.any fun mk => decide (Ended mk) && (datesOf mk).toBool

/-- The bond, if the program would return it. -/
def bondDue (wallet : Pubkey) (p : Spot) : ℕ :=
  match p.market with
  | some market =>
    if market.creator = wallet ∧ Ended market ∧ market.bondClaimed = false ∧
      market.bondLamports.toNat ≤ p.vault.toNat then market.bondLamports.toNat else 0
  | none => 0

/-- The payout, if the program would pay it out of what is there. -/
def payoutDue (wallet : Pubkey) (room : ℕ) (p : Spot) : ℕ :=
  match p.market, p.position with
  | some market, some q =>
    if Ended market ∧ q.owner = wallet ∧ 0 < q.amountLamports then
      match claimSplit market q with
      | .ok (payout, fee) => if payout.toNat + fee.toNat ≤ room then payout.toNat else 0
      | .error _ => 0
    else 0
  | _, _ => 0

def due (wallet : Pubkey) (p : Spot) : ℕ :=
  if p.legible then p.bondDue wallet + p.payoutDue wallet (p.vault.toNat - p.bondDue wallet) else 0

/-- The program would return the bond. -/
def Bonds (wallet : Pubkey) (p : Spot) : Prop :=
  ∃ mk, p.market = some mk ∧ mk.creator = wallet ∧ Ended mk ∧ mk.bondClaimed = false ∧
    mk.bondLamports.toNat ≤ p.vault.toNat

/-- The program would take the claim of the position. -/
def Pays (wallet : Pubkey) (p : Spot) (payout fee : UInt64) : Prop :=
  ∃ mk q, p.market = some mk ∧ p.position = some q ∧ Ended mk ∧ q.owner = wallet ∧
    0 < q.amountLamports ∧ claimSplit mk q = .ok (payout, fee) ∧
    payout.toNat + fee.toNat ≤ p.vault.toNat

end Spot

section Claims
variable {rt : Runtime} {wallet m : Pubkey} {s t : Chain}

theorem claimBond_iff (hsupply : total s.lamports < 2 ^ 64) :
    (∃ t, claimBond wallet m s = .ok t) ↔ (spot wallet m s).Bonds wallet := by
  constructor
  · rintro ⟨t, h⟩
    obtain ⟨mk, l, _, hmk, hcreator, hended, hbond, ⟨_, hdebit, -⟩, -⟩ := claimBond_ok h
    have hcover := hdebit.entry
    refine ⟨mk, hmk, hcreator, hended, hbond, ?_⟩
    show _ ≤ (s.lamports (.market m)).toNat
    omega
  · rintro ⟨mk, hmk, rfl, hended, hbond, hcover⟩
    exact exists_claimBond hmk hended hbond hcover hsupply

theorem claim_iff (hsupply : total s.lamports < 2 ^ 64) :
    (∃ t, claim wallet m s = .ok t) ↔ ∃ payout fee, (spot wallet m s).Pays wallet payout fee := by
  constructor
  · rintro ⟨t, h⟩
    obtain ⟨mk, q, payout, fee, l, _, hc, hsplit, hcharged, -⟩ := claim_ok h
    have hvault := hcharged.vault
    refine ⟨payout, fee, mk, q, hc.market, hc.position, hc.ended, hc.owner, hc.positive, hsplit, ?_⟩
    show _ ≤ (s.lamports (.market m)).toNat
    omega
  · rintro ⟨payout, fee, mk, q, hmk, hq, hended, howner, hpos, hsplit, hcover⟩
    exact exists_claim ⟨hmk, hq, hended, howner, hpos⟩ hsplit hcover hsupply

theorem Spot.bondDue_of_bonds {p : Spot} {mk : Stoppage.Market} (hmk : p.market = some mk)
    (h : p.Bonds wallet) : p.bondDue wallet = mk.bondLamports.toNat := by
  obtain ⟨mk', hmk', hcheck⟩ := h
  cases hmk.symm.trans hmk'
  rw [bondDue, hmk]
  exact if_pos hcheck

theorem Spot.bondDue_of_not {p : Spot} (h : ¬ p.Bonds wallet) : p.bondDue wallet = 0 := by
  rw [bondDue]
  split
  · rename_i mk hmk
    exact if_neg fun hcheck => h ⟨mk, hmk, hcheck⟩
  · rfl

theorem Spot.payoutDue_of_pays {p : Spot} {payout fee : UInt64}
    (h : p.Pays wallet payout fee) : p.payoutDue wallet p.vault.toNat = payout.toNat := by
  obtain ⟨mk, q, hmk, hq, hended, howner, hpos, hsplit, hcover⟩ := h
  rw [payoutDue, hmk, hq]
  dsimp only
  rw [if_pos ⟨hended, howner, hpos⟩, hsplit]
  exact if_pos hcover

theorem Spot.payoutDue_of_not {p : Spot} (h : ¬ ∃ payout fee, p.Pays wallet payout fee) :
    p.payoutDue wallet p.vault.toNat = 0 := by
  rw [payoutDue]
  split
  · rename_i mk q hmk hq
    split_ifs with hcheck
    · split
      · rename_i payout fee hsplit
        exact if_neg fun hcover =>
          h ⟨payout, fee, mk, q, hmk, hq, hcheck.1, hcheck.2.1, hcheck.2.2, hsplit, hcover⟩
      · rfl
    · rfl
  · rfl

end Claims

/-! ## One claim -/

/-- What a claim of the wallet on a market leaves alone, and what it brings. -/
structure After (rt : Runtime) (wallet m : Pubkey) (gain : ℕ) (s t : Chain) : Prop where
  reachable : Reachable rt t
  frame : ∀ l, l ≠ m → spot wallet l t = spot wallet l s
  legible : (spot wallet m t).legible = (spot wallet m s).legible
  purse : (t.lamports (.external wallet)).toNat = (s.lamports (.external wallet)).toNat + gain

section One
variable {rt : Runtime} {wallet m : Pubkey} {s t u : Chain} {gain gain' : ℕ}

theorem After.refl (hs : Reachable rt s) : After rt wallet m 0 s s :=
  ⟨hs, fun _ _ => rfl, rfl, rfl⟩

theorem After.trans (h : After rt wallet m gain s t) (h' : After rt wallet m gain' t u) :
    After rt wallet m (gain + gain') s u where
  reachable := h'.reachable
  frame l hl := (h'.frame l hl).trans (h.frame l hl)
  legible := h'.legible.trans h.legible
  purse := by rw [h'.purse, h.purse, Nat.add_assoc]

theorem After.of_claimBond (hs : Reachable rt s) (h : claimBond wallet m s = .ok t) :
    After rt wallet m ((spot wallet m s).bondDue wallet) s t := by
  have hstep : Step rt s (.call ⟨[], 0⟩ (.claimBond wallet m)) t := h
  have hready : (spot wallet m s).Bonds wallet := (claimBond_iff hs.supply).mp ⟨t, h⟩
  obtain ⟨mk, l, _, hmk, -, -, -, hl, rfl⟩ := claimBond_ok h
  have hplace {k : Pubkey} (hk : k ≠ m) : Address.market k ≠ .market m :=
    fun heq => hk (Address.market.inj heq)
  refine ⟨hs.steps (.single hstep), ?_, ?_, ?_⟩
  · intro k hk
    rw [spot, spot, Spot.mk.injEq]
    exact ⟨Function.update_of_ne hk _ _, rfl, hl.other (hplace hk) Address.noConfusion⟩
  · rw [Spot.legible, Spot.legible, spot, spot, hmk]
    dsimp only
    rw [Function.update_self]
    rfl
  · rw [Spot.bondDue_of_bonds hmk hready]
    exact hl.payee Address.noConfusion

theorem bondClaimed_of_claimBond (h : claimBond wallet m s = .ok t) :
    ∃ mk, s.market m = some mk ∧ t.market m = some { mk with bondClaimed := true } ∧
      t.position = s.position ∧
      (t.lamports (.market m)).toNat + mk.bondLamports.toNat = (s.lamports (.market m)).toNat := by
  obtain ⟨mk, l, _, hmk, -, -, -, hl, rfl⟩ := claimBond_ok h
  exact ⟨mk, hmk, Function.update_self _ _ _, rfl, hl.payer Address.noConfusion⟩

theorem After.of_claim (hs : Reachable rt s) (h : claim wallet m s = .ok t) :
    After rt wallet m ((spot wallet m s).payoutDue wallet (spot wallet m s).vault.toNat) s t := by
  have hstep : Step rt s (.call ⟨[], 0⟩ (.claim wallet m)) t := h
  obtain ⟨mk, q, payout, fee, l, _, hc, hsplit, hcharged, rfl⟩ := claim_ok h
  have hpays : (spot wallet m s).Pays wallet payout fee := by
    have hvault := hcharged.vault
    refine ⟨mk, q, hc.market, hc.position, hc.ended, hc.owner, hc.positive, hsplit, ?_⟩
    show _ ≤ (s.lamports (.market m)).toNat
    omega
  refine ⟨hs.steps (.single hstep), ?_, rfl, ?_⟩
  · intro k hk
    have hplace : Address.market k ≠ .market m := fun heq => hk (Address.market.inj heq)
    rw [spot, spot, Spot.mk.injEq]
    refine ⟨rfl, Function.update_of_ne (fun heq => hk (Prod.mk.inj heq).1) _ _, ?_⟩
    exact hcharged.other _ hplace Address.noConfusion Address.noConfusion
  · rw [Spot.payoutDue_of_pays hpays]
    exact hcharged.claimant

theorem emptied_of_claim (h : claim wallet m s = .ok t) :
    (spot wallet m t).market = (spot wallet m s).market ∧
      (spot wallet m t).vault.toNat ≤ (spot wallet m s).vault.toNat ∧
      ∃ q, (spot wallet m t).position = some q ∧ q.amountLamports = 0 := by
  obtain ⟨mk, q, payout, fee, l, _, -, -, hcharged, rfl⟩ := claim_ok h
  have hvault := hcharged.vault
  refine ⟨rfl, ?_, _, Function.update_self _ _ _, rfl⟩
  show (l (.market m)).toNat ≤ (s.lamports (.market m)).toNat
  omega

/-! ## One market -/

def ClaimCalls.Through (calls : ClaimCalls) : Prop :=
  calls.market.toBool = true ∧ calls.bond.Sent ∧ calls.position.toBool = true ∧ calls.payout.Sent

theorem sendClaimIx_eq {calls : SweepCalls} (h : calls.Sent) (ix : Instruction) :
    sendClaimIx rt calls ix s = (exec rt ⟨[ix], 0⟩ ix s).toOption.getD s := by
  obtain ⟨hhash, hsent⟩ := h
  have hexec : execTx rt [ix] s = exec rt ⟨[ix], 0⟩ ix s := bind_pure _
  rw [sendClaimIx, hexec]
  cases hb : calls.getLatestBlockhash with
  | error e =>
    rw [hb] at hhash
    cases hhash
  | ok _ =>
    cases hr : calls.sendRawTransaction with
    | error e =>
      rw [hr] at hsent
      cases hsent
    | ok _ => rfl

variable {w : Sweeper}

/-- **The claim of the bond.** -/
theorem claimBondOf_after {calls : SweepCalls} {market : Escrow.Market} {mk : Stoppage.Market}
    (hs : Reachable rt s) (hsent : calls.Sent) (hdry : w.dryRun = false)
    (hmk : s.market m = some mk) (hcreator : market.creator = mk.creator)
    (hclaimed : market.bondClaimed = mk.bondClaimed)
    (ht : claimBondOf rt w calls market m s = t) :
    After rt w.wallet m ((spot w.wallet m s).bondDue w.wallet) s t ∧
      ¬ (spot w.wallet m t).Bonds w.wallet ∧
      (spot w.wallet m t).vault.toNat =
        (spot w.wallet m s).vault.toNat - (spot w.wallet m s).bondDue w.wallet ∧
      ∀ room, (spot w.wallet m t).payoutDue w.wallet room =
        (spot w.wallet m s).payoutDue w.wallet room := by
  by_cases hready : (spot w.wallet m s).Bonds w.wallet
  · obtain ⟨mk', hmk', hmine, -, hopen, -⟩ := id hready
    cases hmk.symm.trans hmk'
    obtain ⟨u, hu⟩ := (claimBond_iff hs.supply).mpr hready
    have hexec : exec rt ⟨[.claimBond w.wallet m], 0⟩ (.claimBond w.wallet m) s = .ok u := hu
    rw [claimBondOf, if_pos ⟨hcreator.trans hmine, hclaimed.trans hopen, hdry⟩,
      sendClaimIx_eq hsent, hexec] at ht
    obtain rfl : u = t := ht
    obtain ⟨mk', hmk'', hnew, hposition, hvault⟩ := bondClaimed_of_claimBond hu
    cases hmk.symm.trans hmk''
    refine ⟨.of_claimBond hs hu, ?_, ?_, ?_⟩
    · rintro ⟨mk', hmk', -, -, hfalse, -⟩
      cases hnew.symm.trans hmk'
      cases hfalse
    · rw [Spot.bondDue_of_bonds hmk hready]
      show (u.lamports (.market m)).toNat = (s.lamports (.market m)).toNat - _
      omega
    · intro room
      rw [Spot.payoutDue, Spot.payoutDue, spot, spot, hmk, hnew, hposition]
      cases s.position (m, w.wallet) with
      | none => rfl
      | some q => rfl
  · have hsame : t = s := by
      rw [← ht, claimBondOf]
      split_ifs
      · have hnot : ¬ ∃ u, claimBond w.wallet m s = .ok u := mt (claimBond_iff hs.supply).mp hready
        rw [sendClaimIx_eq hsent]
        cases hexec : exec rt ⟨[.claimBond w.wallet m], 0⟩ (.claimBond w.wallet m) s with
        | ok u => exact absurd ⟨u, hexec⟩ hnot
        | error e => rfl
      · rfl
    subst hsame
    rw [Spot.bondDue_of_not hready]
    exact ⟨.refl hs, hready, rfl, fun _ => rfl⟩

/-- **The claim of the position.** -/
theorem claimPositionOf_after {calls : SweepCalls} (hs : Reachable rt s) (hsent : calls.Sent)
    (hdry : w.dryRun = false) (hbonds : ¬ (spot w.wallet m s).Bonds w.wallet)
    (ht : claimPositionOf rt w calls m s = t) :
    After rt w.wallet m
        ((spot w.wallet m s).payoutDue w.wallet (spot w.wallet m s).vault.toNat) s t ∧
      ¬ (spot w.wallet m t).Bonds w.wallet ∧
      ¬ ∃ payout fee, (spot w.wallet m t).Pays w.wallet payout fee := by
  by_cases hready : ∃ payout fee, (spot w.wallet m s).Pays w.wallet payout fee
  · obtain ⟨u, hu⟩ := (claim_iff hs.supply).mpr hready
    have hinfo : positionInfo s m w.wallet = true := by
      obtain ⟨_, _, _, q, -, hq, -⟩ := hready
      have hposition : s.position (m, w.wallet) = some q := hq
      rw [positionInfo, hposition]
      rfl
    have hexec : exec rt ⟨[.claim w.wallet m], 0⟩ (.claim w.wallet m) s = .ok u := hu
    rw [claimPositionOf, if_pos ⟨hinfo, hdry⟩, sendClaimIx_eq hsent, hexec] at ht
    obtain rfl : u = t := ht
    obtain ⟨hmarket, hvault, q, hq, hzero⟩ := emptied_of_claim hu
    refine ⟨.of_claim hs hu, ?_, ?_⟩
    · rintro ⟨mk, hmk, hcreator, hended, hopen, hcover⟩
      exact hbonds ⟨mk, hmarket.symm.trans hmk, hcreator, hended, hopen, hcover.trans hvault⟩
    · rintro ⟨_, _, _, q', -, hq', -, -, hpos, -⟩
      cases hq.symm.trans hq'
      rw [hzero] at hpos
      exact absurd hpos (by decide)
  · have hsame : t = s := by
      rw [← ht, claimPositionOf]
      split_ifs
      · have hnot : ¬ ∃ u, claim w.wallet m s = .ok u := mt (claim_iff hs.supply).mp hready
        rw [sendClaimIx_eq hsent]
        cases hexec : exec rt ⟨[.claim w.wallet m], 0⟩ (.claim w.wallet m) s with
        | ok u => exact absurd ⟨u, hexec⟩ hnot
        | error e => rfl
      · rfl
    subst hsame
    rw [Spot.payoutDue_of_not hready]
    exact ⟨.refl hs, hbonds, hready⟩

theorem statusFromNum_ended_iff (mk : Stoppage.Market) :
    ¬ (statusFromNum mk.status ≠ .settled ∧ statusFromNum mk.status ≠ .void) ↔ Ended mk := by
  have hsettled : statusSettled = 2 := rfl
  have hvoid : statusVoid = 3 := rfl
  rw [Ended, hsettled, hvoid, statusFromNum]
  split_ifs with h1 h2 h3
  · rw [h1]
    decide
  · rw [h2]
    decide
  · rw [h3]
    decide
  · simp [h2, h3]

theorem exists_of_toBool {ε α : Type} {x : Except ε α} (h : x.toBool = true) : ∃ a, x = .ok a := by
  cases x with
  | ok a => exact ⟨a, rfl⟩
  | error e => cases h

theorem Spot.due_of_not {p : Spot} (h : p.legible = false) : p.due wallet = 0 := by
  rw [due, h]
  rfl

theorem legible_of_parse {mk : Stoppage.Market} {view : Escrow.Market} (hmk : s.market m = some mk)
    (hparse : parseMarket mk.data m = .ok view) (hended : Ended mk) :
    (spot wallet m s).legible = true := by
  obtain ⟨_, _, hdates, -⟩ := parseMarket_data.mp hparse
  rw [Spot.legible, spot, hmk, Option.any_some, hdates, decide_eq_true hended]
  rfl

theorem claimMarket_idle {calls : ClaimCalls} {u : Unit} (hread : calls.market = .ok u)
    (hnot : (spot w.wallet m s).legible = false) : claimMarket rt w calls m s = (s, .ok ()) := by
  rw [claimMarket, hread, accountInfo]
  cases hmk : s.market m with
  | none =>
    dsimp only
    split_ifs
    · rfl
    · rfl
  | some mk =>
    rw [Option.map_some]
    cases hparse : parseMarket mk.data m with
    | error e => rfl
    | ok view =>
      obtain ⟨_, _, -, hview⟩ := parseMarket_data.mp hparse
      have hended : ¬ Ended mk := fun hended => by
        rw [legible_of_parse hmk hparse hended] at hnot
        cases hnot
      rw [hview]
      exact if_pos (not_not.mp (mt (statusFromNum_ended_iff mk).mp hended))

/-- **One market.** -/
theorem claimMarket_after {calls : ClaimCalls} (hs : Reachable rt s) (hthrough : calls.Through)
    (hdry : w.dryRun = false) :
    ∃ t, claimMarket rt w calls m s = (t, .ok ()) ∧
      After rt w.wallet m ((spot w.wallet m s).due w.wallet) s t ∧
      ((spot w.wallet m s).legible = true → ¬ (spot w.wallet m t).Bonds w.wallet ∧
        ¬ ∃ payout fee, (spot w.wallet m t).Pays w.wallet payout fee) := by
  obtain ⟨hmarket, hbond, hposition, hpayout⟩ := hthrough
  obtain ⟨_, hread⟩ := exists_of_toBool hmarket
  obtain ⟨_, hinfo⟩ := exists_of_toBool hposition
  cases hlegible : (spot w.wallet m s).legible with
  | false =>
    refine ⟨s, claimMarket_idle hread hlegible, ?_, fun h => by cases h⟩
    rw [Spot.due_of_not hlegible]
    exact .refl hs
  | true =>
    obtain ⟨mk, hmk, hcheck⟩ := (Option.any_eq_true _ _).mp hlegible
    rw [Bool.and_eq_true, decide_eq_true_iff] at hcheck
    obtain ⟨hended, hdates⟩ := hcheck
    obtain ⟨dates, hdates⟩ := exists_of_toBool hdates
    have hmarket : s.market m = some mk := hmk
    have hparse : parseMarket mk.data m = .ok (viewOf mk m dates.1 dates.2) :=
      parseMarket_data.mpr ⟨_, _, hdates, rfl⟩
    obtain ⟨h1, hbonds, hvault, hroom⟩ := @claimBondOf_after rt m s _ w _
      (viewOf mk m dates.1 dates.2) mk hs hbond hdry hmarket rfl rfl rfl
    obtain ⟨h2, hdone⟩ := @claimPositionOf_after rt m _ _ w _ h1.reachable hpayout hdry hbonds rfl
    refine ⟨_, ?_, ?_, fun _ => hdone⟩
    · rw [claimMarket, hread, accountInfo, hmarket, Option.map_some, hparse]
      dsimp only
      rw [hinfo]
      exact if_neg ((statusFromNum_ended_iff mk).mpr hended)
    · rw [Spot.due, hlegible, if_pos rfl, ← hroom, ← hvault]
      exact h1.trans h2

/-- The week keeper's claims are the same, when the calls get through. -/
theorem weekClaims_eq {wallet : Pubkey} {dryRun : Bool} {calls : ClaimCalls} {u : Unit}
    (hinfo : calls.position = .ok u) :
    weekClaims rt wallet dryRun calls m s = claimMarket rt ⟨wallet, dryRun, false⟩ calls m s := by
  rw [weekClaims, claimMarket, hinfo]
  cases calls.market with
  | error e => rfl
  | ok _ =>
    dsimp only
    split
    · rename_i market _
      by_cases hended : market.status = .settled ∨ market.status = .void
      · have hnot : ¬ (market.status ≠ .settled ∧ market.status ≠ .void) := by tauto
        rw [decide_eq_true hended, if_neg hnot]
        rfl
      · have hnot : market.status ≠ .settled ∧ market.status ≠ .void := by tauto
        rw [decide_eq_false hended, if_pos hnot]
        rfl
    · rfl

end One

/-! ## A whole sweep -/

section Sweep
variable {rt : Runtime} {w : Sweeper} {calls : Pubkey → ClaimCalls} {ms : List Pubkey} {s : Chain}

theorem sweep_eq_round (hdry : w.dryRun = false) (hthrough : ∀ m ∈ ms, (calls m).Through)
    (hs : Reachable rt s) : sweep rt w calls ms s =
      (Visits.round (fun m s => (claimMarket rt w (calls m) m s).1) ms s, .ok ()) := by
  induction ms generalizing s with
  | nil => rfl
  | cons m ms ih =>
    obtain ⟨hm, hrest⟩ := List.forall_mem_cons.mp hthrough
    obtain ⟨t, ht, hafter, -⟩ := @claimMarket_after rt m s w _ hs hm hdry
    rw [sweep, ht, Visits.round_cons, ht]
    exact ih hrest hafter.reachable

/-- The visits of a sweep are independent. -/
theorem local_claimMarket (s : Chain) (hdry : w.dryRun = false)
    (hthrough : ∀ m ∈ ms, (calls m).Through) :
    Visits.Local (fun m s => (claimMarket rt w (calls m) m s).1) (spot w.wallet)
      (fun t => Reachable rt t ∧
        ∀ m, (spot w.wallet m t).legible = (spot w.wallet m s).legible)
      (fun _ p => p.due w.wallet)
      (fun m p => (spot w.wallet m s).legible = true →
        ¬ p.Bonds w.wallet ∧ ¬ ∃ payout fee, p.Pays w.wallet payout fee)
      (fun t => (t.lamports (.external w.wallet)).toNat) ms := by
  have hvisit {m : Pubkey} {t : Chain} (hm : m ∈ ms) (ht : Reachable rt t) :=
    @claimMarket_after rt m t w _ ht (hthrough m hm) hdry
  refine ⟨?_, ?_, ?_, ?_⟩
  · rintro m t hm ⟨hreach, hlegible⟩
    obtain ⟨u, hu, hafter, -⟩ := hvisit hm hreach
    rw [hu]
    refine ⟨hafter.reachable, fun l => ?_⟩
    by_cases hl : l = m
    · rw [hl, hafter.legible, hlegible]
    · rw [hafter.frame l hl, hlegible]
  · rintro m l t hm ⟨hreach, -⟩ hl
    obtain ⟨u, hu, hafter, -⟩ := hvisit hm hreach
    rw [hu]
    exact hafter.frame l hl
  · rintro m t hm ⟨hreach, hlegible⟩ hreadable
    obtain ⟨u, hu, -, hdone⟩ := hvisit hm hreach
    rw [hu]
    exact hdone ((hlegible m).trans hreadable)
  · rintro m t hm ⟨hreach, -⟩
    obtain ⟨u, hu, hafter, -⟩ := hvisit hm hreach
    rw [hu]
    exact hafter.purse

/-- **A sweep collects all there is.** When all its calls get through, the wallet gains of each
market the bond and the payout that the program owed it at the start, nothing of them is left to
claim, and no other market is touched. -/
theorem sweep_collects (hs : Reachable rt s) (hdry : w.dryRun = false) (hnodup : ms.Nodup)
    (hthrough : ∀ m ∈ ms, (calls m).Through) :
    ∃ t, sweep rt w calls ms s = (t, .ok ()) ∧
      (t.lamports (.external w.wallet)).toNat = (s.lamports (.external w.wallet)).toNat +
        (ms.map fun m => (spot w.wallet m s).due w.wallet).sum ∧
      (∀ m ∈ ms, (spot w.wallet m s).legible = true →
        (¬ ∃ u, claimBond w.wallet m t = .ok u) ∧ ¬ ∃ u, claim w.wallet m t = .ok u) ∧
      ∀ m ∉ ms, spot w.wallet m t = spot w.wallet m s := by
  have hlocal := @local_claimMarket rt w calls ms s hdry hthrough
  have hstart : Reachable rt s ∧
      ∀ m, (spot w.wallet m s).legible = (spot w.wallet m s).legible := ⟨hs, fun _ => rfl⟩
  have hsupply := (hlocal.round_inv hstart).1.supply
  refine ⟨_, sweep_eq_round hdry hthrough hs, hlocal.round_purse hstart hnodup, ?_, ?_⟩
  · intro m hm hreadable
    obtain ⟨hbonds, hpays⟩ := hlocal.round_done hstart hnodup m hm hreadable
    exact ⟨mt (claimBond_iff hsupply).mp hbonds, mt (claim_iff hsupply).mp hpays⟩
  · intro m hm
    exact hlocal.round_frame hstart hm

end Sweep

namespace Sample
open Stoppage.Sample

def bothMarkets : List Pubkey := [Stoppage.Sample.market, second]

def answered : ClaimCalls := ⟨.ok (), calls [], .ok (), calls []⟩

end Sample

theorem sweep_collects_sample : ∃ s t, Reachable Sample.twoMarkets s ∧
    sweep Sample.twoMarkets ⟨Stoppage.Sample.alice, false, false⟩ (fun _ => Sample.answered)
      Sample.bothMarkets s = (t, .ok ()) ∧
    (t.lamports (.external Stoppage.Sample.alice)).toNat =
      (s.lamports (.external Stoppage.Sample.alice)).toNat + 2 * minBondLamports.toNat := by
  have hrun : Action.runsTo Sample.twoMarkets Sample.voided Stoppage.Sample.genesis (fun s =>
      (Sample.bothMarkets.map fun m => (spot Stoppage.Sample.alice m s).due
        Stoppage.Sample.alice).sum = 2 * minBondLamports.toNat) = true := by
    decide +kernel
  obtain ⟨s, hsteps, hdue⟩ := steps_of_runsTo hrun
  have hreach : Reachable Sample.twoMarkets s := ⟨_, _, Stoppage.Sample.genesis_ok, hsteps⟩
  obtain ⟨t, hsweep, hpurse, -⟩ := @sweep_collects Sample.twoMarkets
    ⟨Stoppage.Sample.alice, false, false⟩ (fun _ => Sample.answered) Sample.bothMarkets s hreach rfl
    (by decide) fun _ _ => ⟨rfl, ⟨rfl, rfl⟩, rfl, rfl, rfl⟩
  rw [hdue] at hpurse
  exact ⟨s, t, hreach, hsweep, hpurse⟩

end Stoppage.Keeper

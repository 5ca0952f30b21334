import Stoppage.Instance.Pool
import Stoppage.Instance.Lifecycle

/-! # Solvency and conservation

A market created when no position at its address holds a stake is a sound pool for its whole
lifetime. From there: its balance covers rent, bond and everything its claims would pay, the pools
are the stakes while it is open, every claim goes through and pays the pari-mutuel share, and no
arithmetic overflows. A stake left over from an earlier market at the same address breaks this.
-/

namespace Stoppage
open Fallible BalanceSheet TransitionSystem MarketProgram PariMutuel
set_option autoImplicit false

/-! ## Sound pools -/

/-- No position of the market holds a stake. -/
def Clean (m : Pubkey) (s : Chain) : Prop := ∀ o, (s.positionAt m o).amountLamports = 0

def PoolSound (rt : Runtime) (m : Pubkey) (s : Chain) : Prop :=
  ∀ mk, s.market m = some mk → (s.pool rt m mk).Sound

theorem Change.market_none {rt : Runtime} {m : Pubkey} {s t : Chain} {op : Op}
    (h : Change rt m s t op) (hcreate : op ≠ .create) (hnone : s.market m = none) :
    t.market m = none := by
  have hno : ∀ {mk : Market}, s.market m ≠ some mk := by
    intro mk hmk
    rw [hnone] at hmk
    cases hmk
  cases h with
  | idle hm => exact hm.trans hnone
  | create => exact absurd rfl hcreate
  | join _ _ _ _ _ _ _ hj => exact absurd hj.market hno
  | forceSettle _ _ hmk => exact absurd hmk hno
  | settleFromProof _ _ _ hmk => exact absurd hmk hno
  | void _ hmk => exact absurd hmk hno
  | claim _ _ _ _ _ hc => exact absurd hc.market hno
  | claimBond _ hmk => exact absurd hmk hno
  | close _ hmk => exact absurd hmk hno
  | attest _ _ hmk => exact absurd hmk hno

theorem Change.poolSound_create {rt : Runtime} {m : Pubkey} {s t : Chain}
    (h : Change rt m s t .create) (hclean : Clean m s) : PoolSound rt m t := by
  cases h with
  | create creator seeds closesAt oracle feeBps _ _ _ _ hm hp hv =>
    intro mk hmk
    cases market_inj hm hmk
    refine Pool.sound_of_empty ?_ ?_ hv
    · intro o
      show (t.positionAt m o).amountLamports.toNat = 0
      rw [positionAt_congr (hp o), hclean o]
      rfl
    · intro d
      cases d with
      | yes => rfl
      | no => rfl

theorem Step.poolSound {rt : Runtime} {s t : Chain} {a : Action} (h : Step rt s a t) {m : Pubkey}
    (hwf : WellFormed m s) (hclean : a.opOn rt m = .create → Clean m s) (hs : PoolSound rt m s) :
    PoolSound rt m t := by
  have hc := h.change m
  generalize a.opOn rt m = op at hc hclean
  by_cases hcreate : op = .create
  · subst hcreate
    exact hc.poolSound_create (hclean rfl)
  by_cases hclose : op = .close
  · subst hclose
    cases hc with
    | close _ _ _ _ hm =>
      intro mk hmk
      rw [hm] at hmk
      cases hmk
  intro mk' hmk'
  cases hmk : s.market m with
  | none =>
    rw [hc.market_none hcreate hmk] at hmk'
    cases hmk'
  | some mk =>
    obtain ⟨mk₁, h1, hstep⟩ := hc.simulates hwf hmk (hs mk hmk) hclose
    cases market_inj h1 hmk'
    exact hstep.sound (hs mk hmk)

theorem poolSound_of_run {rt : Runtime} {m : Pubkey} {s t : Chain} {as : List Action} {mk : Market}
    (h : Steps (Step rt) s as t) (hmk : s.market m = some mk) (hwf : WellFormed m s)
    (hsound : PoolSound rt m s) (halive : ∀ a ∈ as, a.opOn rt m ≠ .close) :
    WellFormed m t ∧ PoolSound rt m t ∧ ∃ mk', t.market m = some mk' := by
  refine h.invariant (I := fun u => WellFormed m u ∧ PoolSound rt m u ∧
    ∃ mk, u.market m = some mk) ?_ ⟨hwf, hsound, mk, hmk⟩
  rintro u b v hb hstep ⟨hu, hpool, mk₁, h1⟩
  obtain ⟨mk', hmk', -⟩ := (hstep.change m).next h1 (halive b hb)
  refine ⟨hstep.wellFormed hu, hstep.poolSound hu ?_ hpool, mk', hmk'⟩
  intro hop
  have hc := hstep.change m
  rw [hop] at hc
  cases hc with
  | create _ _ _ _ _ _ hnone =>
    rw [h1] at hnone
    cases hnone

/-- **A market created clean stays sound.** -/
theorem Lifetime.poolSound {rt : Runtime} {m : Pubkey} {s₀ s t : Chain} {as : List Action}
    (h : Lifetime rt m s₀ s as t) (hclean : Clean m s₀) :
    PoolSound rt m t ∧ ∃ mk, t.market m = some mk := by
  obtain ⟨a, hcreate, ha⟩ := h.created
  have hs := hcreate.change m
  rw [ha] at hs
  obtain ⟨mk, hmk⟩ : ∃ mk, s.market m = some mk := by
    cases hs with
    | create _ _ _ _ _ _ _ _ _ hm => exact ⟨_, hm⟩
  have hwf := hcreate.wellFormed (h.reachable.wellFormed m)
  exact (poolSound_of_run h.run hmk hwf (hs.poolSound_create hclean) h.alive).2

theorem Lifetime.reachable_end {rt : Runtime} {m : Pubkey} {s₀ s t : Chain} {as : List Action}
    (h : Lifetime rt m s₀ s as t) : Reachable rt t := by
  obtain ⟨a, hcreate, -⟩ := h.created
  exact h.reachable.steps (.cons hcreate h.run)

/-! ## Claims go through -/

section Claims
variable {rt : Runtime} {s : Chain} {m o : Pubkey} {mk : Market} {p : Position}

theorem exists_claim {payout fee : UInt64} (hc : Claimable s m o mk p)
    (hsplit : claimSplit mk p = .ok (payout, fee))
    (hcover : payout.toNat + fee.toNat ≤ (s.lamports (.market m)).toNat)
    (hsupply : total s.lamports < 2 ^ 64) : ∃ t, MarketProgram.claim o m s = .ok t := by
  have hvault := (s.lamports (.market m)).toNat_lt
  obtain ⟨charge, hcharge⟩ : ∃ c : UInt64, c.toNat = payout.toNat + fee.toNat :=
    ⟨_, toNat_ofNat_of_lt (by omega)⟩
  have hadd : checkedAdd (.overflow .claim : ProgramError) payout fee = .ok charge :=
    checkedAdd_eq_ok.mpr hcharge
  have hroom : charge.toNat ≤ (s.lamports (.market m)).toNat := by omega
  obtain ⟨l₁, h1, hd⟩ := Chain.exists_subLamports s .claim hroom
  have ht1 := hd.total
  have hroom₁ : total l₁ + payout.toNat < 2 ^ 64 := by omega
  obtain ⟨l₂, h2, hc2⟩ :=
    Chain.exists_addLamports { s with lamports := l₁ } .claim (.external o) hroom₁
  have ht2 := hc2.total
  have hroom₂ : total l₂ + fee.toNat < 2 ^ 64 := by
    simp only at ht2
    omega
  obtain ⟨l₃, h3, -⟩ := Chain.exists_addLamports { s with lamports := l₂ } .claim .treasury hroom₂
  have hload : s.loadMarket m = .ok mk := getOr_eq_ok.mpr hc.market
  have hended : mk.status = statusSettled ∨ mk.status = statusVoid := hc.ended
  simp only [MarketProgram.claim, hload, Chain.loadPosition, hc.position, getOr_some, ok_bind,
    require_of hended, require_of hc.owner, require_of hc.positive, hsplit, hadd, h1, h2]
  split
  · exact ⟨_, rfl⟩
  · split
    · simp only [h3, ok_bind]
      exact ⟨_, rfl⟩
    · exact ⟨_, rfl⟩

theorem exists_claimBond (hmk : s.market m = some mk) (hended : Ended mk)
    (hbond : mk.bondClaimed = false)
    (hcover : mk.bondLamports.toNat ≤ (s.lamports (.market m)).toNat)
    (hsupply : total s.lamports < 2 ^ 64) :
    ∃ t, MarketProgram.claimBond mk.creator m s = .ok t := by
  obtain ⟨l₁, h1, hd⟩ := Chain.exists_subLamports s .claimBond hcover
  have ht1 := hd.total
  have hroom : total l₁ + mk.bondLamports.toNat < 2 ^ 64 := by omega
  obtain ⟨l₂, h2, -⟩ :=
    Chain.exists_addLamports { s with lamports := l₁ } .claimBond (.external mk.creator) hroom
  have hload : s.loadMarket m = .ok mk := getOr_eq_ok.mpr hmk
  have hended' : mk.status = statusSettled ∨ mk.status = statusVoid := hended
  simp only [MarketProgram.claimBond, hload, ok_bind, require_of hended',
    require_of hbond, h1, h2]
  exact ⟨_, rfl⟩

end Claims

/-! ## Solvency -/

/-- What `claim` would pay the position of `o` if it passes the checks of `claim`, fee included. -/
def Chain.due (s : Chain) (m : Pubkey) (mk : Market) (o : Pubkey) : ℕ :=
  match s.position (m, o) with
  | some p =>
    if p.owner = o ∧ 0 < p.amountLamports then
      match claimSplit mk p with
      | .ok (payout, fee) => payout.toNat + fee.toNat
      | .error _ => 0
    else 0
  | none => 0

theorem due_eq_owed {rt : Runtime} {s : Chain} {m : Pubkey} {mk : Market} (hwf : WellFormed m s)
    (hmk : s.market m = some mk) (hended : Ended mk) (hsound : (s.pool rt m mk).Sound)
    (o : Pubkey) : s.due m mk o = (s.pool rt m mk).owed o := by
  unfold Chain.due
  cases hp : s.position (m, o) with
  | none =>
    refine (Pool.owed_of_stake_eq_zero ?_).symm
    show (s.positionAt m o).amountLamports.toNat = 0
    rw [Chain.positionAt, hp]
    rfl
  | some p =>
    dsimp only
    split
    · rename_i hcheck
      have hc : Claimable s m o mk p := ⟨hmk, hp, hended, hcheck.1, hcheck.2⟩
      obtain ⟨payout, fee, hsplit, -, howed⟩ := claimSplit_eq hwf hsound hc
      rw [hsplit]
      exact howed
    · rename_i hcheck
      refine (Pool.owed_of_stake_eq_zero ?_).symm
      show (s.positionAt m o).amountLamports.toNat = 0
      rw [positionAt_of_some hp]
      by_contra hne
      have hpos : 0 < p.amountLamports := by
        rw [UInt64.lt_iff_toNat_lt]
        exact Nat.pos_of_ne_zero hne
      exact hcheck ⟨(hwf.position o p hp hpos).owner, hpos⟩

/-- Markets are only created where no position holds a stake. -/
def CreatesClean (rt : Runtime) (s : Chain) (a : Action) : Prop :=
  ∀ m, a.opOn rt m = .create → Clean m s

/-- A run that creates markets clean keeps every pool sound. -/
theorem clean_run {rt : Runtime} {g t : Chain} {as : List Action} (hg : Genesis g)
    (h : Steps (guarded (Step rt) (CreatesClean rt)) g as t) (m : Pubkey) :
    WellFormed m t ∧ PoolSound rt m t := by
  refine h.invariant (I := fun u => WellFormed m u ∧ PoolSound rt m u) ?_ ⟨hg.wellFormed m, ?_⟩
  · rintro u a v - ⟨hstep, hclean⟩ ⟨hu, hsound⟩
    exact ⟨hstep.wellFormed hu, hstep.poolSound hu (hclean m) hsound⟩
  · intro mk hmk
    rw [hg.market] at hmk
    cases hmk

/-- **Solvency.** In a run that creates markets clean, the balance of every ended market covers its
rent, its bond and all its claims; every claim and the claim of the bond go through. -/
theorem solvency {rt : Runtime} {g t : Chain} {as : List Action} (hg : Genesis g)
    (h : Steps (guarded (Step rt) (CreatesClean rt)) g as t) {m : Pubkey} {mk : Market}
    (hmk : t.market m = some mk) (hended : Ended mk) :
    (rt.minimumBalance Market.space).toNat + (if mk.bondClaimed then 0 else mk.bondLamports.toNat) +
      ∑ o, t.due m mk o ≤ (t.lamports (.market m)).toNat ∧
    (∀ o p, Claimable t m o mk p → ∃ u, MarketProgram.claim o m t = .ok u) ∧
    (mk.bondClaimed = false → ∃ u, MarketProgram.claimBond mk.creator m t = .ok u) := by
  have hreach : Reachable rt t := ⟨g, as, hg, h.of_guarded⟩
  have hwf := hreach.wellFormed m
  have hsound := (clean_run hg h m).2 mk hmk
  have hbacked := hsound.backed
  have hdue : ∑ o, t.due m mk o = ∑ o, (t.pool rt m mk).owed o :=
    Finset.sum_congr rfl fun o _ => due_eq_owed hwf hmk hended hsound o
  refine ⟨?_, ?_, ?_⟩
  · rw [hdue]
    exact hbacked
  · intro o p hc
    obtain ⟨payout, fee, hsplit, -, howed⟩ := claimSplit_eq hwf hsound hc
    refine exists_claim hc hsplit ?_ hreach.supply
    rw [howed]
    exact (Nat.le_add_left _ _).trans (Pool.owed_le hsound o)
  · intro hbond
    refine exists_claimBond hmk hended hbond ?_ hreach.supply
    have hreserve : mk.bondLamports.toNat ≤ (t.pool rt m mk).reserve := by
      show _ ≤ _ + if mk.bondClaimed then 0 else mk.bondLamports.toNat
      rw [hbond]
      exact Nat.le_add_left _ _
    exact hreserve.trans ((Nat.le_add_right _ _).trans hbacked)

def Action.creates : Action → Bool
  | .call _ (.createMarket ..) => true
  | _ => false

theorem createsClean_of_not_creates {a : Action} (h : a.creates = false) (rt : Runtime)
    (s : Chain) : CreatesClean rt s a := by
  intro m hop
  obtain ⟨ctx, ix, rfl, -, hix⟩ := eq_call_of_opOn hop Op.noConfusion
  cases ix with
  | createMarket => cases h
  | _ => cases hix

theorem Sample.clean_of_setUp {s : Chain} (h : Step runtime genesis setUp s) (m : Pubkey) :
    Clean m s := by
  intro o
  rw [positionAt_congr (s := genesis) (by rw [(initializeProtocol_aside h).position])]
  rfl

theorem solvency_sample :
    ∃ (t : Chain) (mk : Market), t.market Sample.market = some mk ∧ mk.status = statusVoid ∧
      ∑ o, t.due Sample.market mk o ≤ (t.lamports (.market Sample.market)).toNat := by
  let as := [Sample.join sideYes 1000000, .tick 1700004601, Sample.void]
  obtain ⟨s₀, s, t, hinit, hcreate, hlife, hstands⟩ := Sample.lifetime_of_runsTo as
    (P := Sample.Stands statusVoid outcomeVoid) (by decide +kernel) (by decide +kernel)
  have hothers : ∀ a ∈ as, a.creates = false := by decide
  have hrest := hlife.run.to_guarded (c := CreatesClean Sample.runtime) fun a ha u =>
    createsClean_of_not_creates (hothers a ha) _ u
  have hguarded : Steps (guarded (Step Sample.runtime) (CreatesClean Sample.runtime))
      Sample.genesis _ t :=
    .cons ⟨hinit, createsClean_of_not_creates rfl _ _⟩
      (.cons ⟨hcreate, fun m _ => Sample.clean_of_setUp hinit m⟩ hrest)
  obtain ⟨mk, hmk, hvoid, -⟩ := hstands.market
  have hsolvent := (solvency Sample.genesis_ok hguarded hmk (.inr hvoid)).1
  exact ⟨t, mk, hmk, hvoid, by omega⟩

namespace Sample

/-- A market voided and closed with bob's stake still in it, and a second one at the same address
in which carol stakes as much. -/
def staleStake : List Action :=
  [setUp, create 1700001000 echo, join sideYes 1000000000, .tick 1700004601, void,
    .tick 1700609402, call (.closeMarket alice market), create 1700700000 echo,
    call (.joinViaWallet carol market sideYes 1000000000), .tick 1700703601, void]

/-- The balance of the market, and what its rent, bond and the claims of bob and carol come to. -/
def Short (t : Chain) : Prop :=
  (t.market market).map (fun mk => decide ((t.lamports (.market market)).toNat <
    (runtime.minimumBalance Market.space).toNat +
      (if mk.bondClaimed then 0 else mk.bondLamports.toNat) +
      (t.due market mk bob + t.due market mk carol))) = some true

instance : DecidablePred Short := fun _ => inferInstanceAs (Decidable (_ = _))

/-- Carol has a stake, and her claim aborts. -/
def CarolStuck (t : Chain) : Prop :=
  (t.position (market, carol)).map (fun p => (p.owner, decide (0 < p.amountLamports))) =
      some (carol, true) ∧
    (call (.claim carol market)).failsWith runtime t (.overflow .claim) = true

instance : DecidablePred CarolStuck := fun _ => inferInstanceAs (Decidable (_ ∧ _))

end Sample

/-- The second market cannot pay what it owes, and once bob is paid carol cannot get her stake
back. -/
theorem stale_stake_insolvent :
    ∃ (t : Chain) (mk : Market), Reachable Sample.runtime t ∧
      t.market Sample.market = some mk ∧ mk.status = statusVoid ∧
      (t.lamports (.market Sample.market)).toNat <
        (Sample.runtime.minimumBalance Market.space).toNat +
          (if mk.bondClaimed then 0 else mk.bondLamports.toNat) + ∑ o, t.due Sample.market mk o ∧
      ∃ u p, Step Sample.runtime t Sample.claim u ∧
        Claimable u Sample.market Sample.carol mk p ∧
        MarketProgram.claim Sample.carol Sample.market u = .error (.overflow .claim) := by
  have hrun : Action.runsTo Sample.runtime Sample.staleStake Sample.genesis (fun t =>
      Sample.Stands statusVoid outcomeVoid t ∧ Sample.Short t ∧
        Action.runsTo Sample.runtime [Sample.claim] t Sample.CarolStuck = true) = true := by
    decide +kernel
  obtain ⟨t, hsteps, hstands, hshort, hrest⟩ := steps_of_runsTo hrun
  obtain ⟨u, hclaims, hstuck, hfails⟩ := steps_of_runsTo hrest
  have hclaim := Steps.single_iff.mp hclaims
  obtain ⟨mk, hmk, hvoid, -⟩ := hstands.market
  obtain ⟨mk₁, h1, hlt⟩ := Option.map_eq_some_iff.mp hshort
  cases market_inj hmk h1
  have hsum : t.due Sample.market mk Sample.bob + t.due Sample.market mk Sample.carol ≤
      ∑ o, t.due Sample.market mk o := by
    have hle := Finset.sum_le_univ_sum_of_nonneg (s := {Sample.bob, Sample.carol})
      (f := t.due Sample.market mk) (fun _ => Nat.zero_le _)
    rwa [Finset.sum_pair (by decide)] at hle
  have hlt' := of_decide_eq_true hlt
  obtain ⟨p, hp, hpair⟩ := Option.map_eq_some_iff.mp hstuck
  have howner : p.owner = Sample.carol := (Prod.mk.inj hpair).1
  have hpos : 0 < p.amountLamports := of_decide_eq_true (Prod.mk.inj hpair).2
  have hmarket : u.market Sample.market = some mk := by
    obtain ⟨_, _, _, _, _, _, -, -, -, hu⟩ := claim_ok hclaim
    rw [hu]
    exact hmk
  exact ⟨t, mk, ⟨_, _, Sample.genesis_ok, hsteps⟩, hmk, hvoid, by omega, u, p, hclaim,
    ⟨hmarket, hp, .inr hvoid, howner, hpos⟩, apply_of_failsWith hfails⟩

end Stoppage

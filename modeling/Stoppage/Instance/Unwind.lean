import Stoppage.Instance.Conservation

/-! # Unwinding an open market

An open market is unwound by voiding it after its grace period: every stake is paid back, and the
account can be closed a week later. Both deadlines are sums of a stored time and a constant, with
overflow checks on, so they bound the closing times and the clock values for which this works:
`unwinding` stays inside these bounds, and `stuck_open` is a market outside of them.
-/

namespace Stoppage
open Fallible BalanceSheet TransitionSystem MarketProgram
set_option autoImplicit false

/-! ## Deadlines -/

def Chain.at (s : Chain) (now : Int64) : Chain := { s with now := now }

theorem exists_voidMarket {s : Chain} {m : Pubkey} {mk : Market} (hmk : s.market m = some mk)
    (hopen : mk.status = statusOpen) (hlate : mk.closesAt.toInt + 3600 < s.now.toInt) :
    ∃ v, voidMarket m s = .ok v ∧ v.market m = some (voided mk s.now) := by
  have hgrace : gracePeriodSeconds.toInt = 3600 := by decide
  have hhigh := s.now.toInt_lt
  have hlow := mk.closesAt.le_toInt
  obtain ⟨deadline, hadd, hdeadline⟩ := exists_checkedAddInt
    (e := (.overflow .voidMarket : ProgramError)) (a := mk.closesAt) (b := gracePeriodSeconds)
    (by omega) (by omega)
  have hlt : deadline < s.now := by
    rw [Int64.lt_iff_toInt_lt]
    omega
  have hstatus : mk.status ≠ statusSettled ∧ mk.status ≠ statusVoid := by
    rw [hopen]
    decide
  rw [voidMarket, Chain.loadMarket, hmk, getOr_some, ok_bind, require_of hstatus, ok_bind, hadd,
    ok_bind, require_of hlt]
  exact ⟨_, rfl, Function.update_self ..⟩

/-- From any time on, there is a later one past the grace period, if it ends in time. -/
theorem exists_late {s : Chain} {mk : Market} {bound : ℤ} (hbound : bound ≤ 2 ^ 63)
    (hcloses : mk.closesAt.toInt + 3601 < bound) (hnow : s.now.toInt < bound) :
    ∃ now : Int64, s.now ≤ now ∧ mk.closesAt.toInt + 3600 < now.toInt ∧ now.toInt < bound := by
  have hlow := mk.closesAt.le_toInt
  obtain ⟨late, hlate⟩ := exists_toInt (n := mk.closesAt.toInt + 3601) (by omega) (by omega)
  by_cases hpast : s.now ≤ late
  · exact ⟨late, hpast, by omega, by omega⟩
  · rw [Int64.le_iff_toInt_le] at hpast
    exact ⟨s.now, Int64.le_refl _, by omega, hnow⟩

/-- An open market can be voided from some time on exactly when its grace period ends before the
last time there is. -/
theorem voidable_iff {s : Chain} {m : Pubkey} {mk : Market} (hmk : s.market m = some mk)
    (hopen : mk.status = statusOpen) :
    (∃ now v, s.now ≤ now ∧ voidMarket m (s.at now) = .ok v) ↔
      mk.closesAt.toInt + 3601 < 2 ^ 63 := by
  constructor
  · rintro ⟨now, v, -, hv⟩
    obtain ⟨mk₁, _, h1, -, -, hlate, -⟩ := voidMarket_ok hv
    cases market_inj hmk h1
    have hlate' : mk.closesAt.toInt + 3600 < now.toInt := hlate
    have hhigh := now.toInt_lt
    omega
  · intro hfits
    obtain ⟨now, hle, hlate, -⟩ := exists_late le_rfl hfits s.now.toInt_lt
    obtain ⟨v, hv, -⟩ := exists_voidMarket (s := s.at now) hmk hopen hlate
    exact ⟨now, v, hle, hv⟩

theorem voidMarket_no_overflow {s : Chain} {m : Pubkey}
    (hfits : ∀ mk, s.market m = some mk → mk.closesAt.toInt + 3600 < 2 ^ 63) :
    voidMarket m s ≠ .error (.overflow .voidMarket) := by
  intro h
  obtain ⟨mk, hmk, h⟩ := of_getOr_bind_error h ProgramError.noConfusion
  obtain ⟨-, h⟩ := of_require_bind_error h ProgramError.noConfusion
  have hgrace : gracePeriodSeconds.toInt = 3600 := by decide
  have hlow := mk.closesAt.le_toInt
  have hhigh := hfits mk hmk
  obtain ⟨deadline, hadd, -⟩ := exists_checkedAddInt
    (e := (.overflow .voidMarket : ProgramError)) (a := mk.closesAt) (b := gracePeriodSeconds)
    (by omega) (by omega)
  rw [hadd, ok_bind] at h
  obtain ⟨-, h⟩ := of_require_bind_error h ProgramError.noConfusion
  cases h

theorem closeMarket_no_overflow {s : Chain} {m : Pubkey} (creator : Pubkey)
    (hfits : ∀ mk, s.market m = some mk → Ended mk → mk.settlesAt.toInt + 604800 < 2 ^ 63)
    (hsupply : total s.lamports < 2 ^ 64) :
    closeMarket creator m s ≠ .error (.overflow .closeMarket) := by
  intro h
  obtain ⟨mk, hmk, h⟩ := of_getOr_bind_error h ProgramError.noConfusion
  obtain ⟨hended, h⟩ := of_require_bind_error h ProgramError.noConfusion
  obtain ⟨-, h⟩ := of_require_bind_error h ProgramError.noConfusion
  have hgrace : marketCloseGraceSeconds.toInt = 604800 := by decide
  have hlow := mk.settlesAt.le_toInt
  have hhigh := hfits mk hmk hended
  obtain ⟨deadline, hadd, -⟩ := exists_checkedAddInt
    (e := (.overflow .closeMarket : ProgramError)) (a := mk.settlesAt)
    (b := marketCloseGraceSeconds) (by omega) (by omega)
  rw [hadd, ok_bind] at h
  obtain ⟨-, h⟩ := of_require_bind_error h ProgramError.noConfusion
  -- The creator and the market together hold no more than the supply.
  have hsum := add_le_total s.lamports (a := .external creator) (b := .market m)
    Address.noConfusion
  rcases bind_eq_error.mp h with hsweep | ⟨_, -, hpure⟩
  · rcases bind_eq_error.mp hsweep with hpay | ⟨_, -, hpure⟩
    · rcases bind_eq_error.mp hpay with hcredit | ⟨_, -, hpure⟩
      · have hwide : 2 ^ 64 ≤ (s.lamports (.external creator)).toNat +
            (s.lamports (.market m)).toNat := (credit_eq_error.mp hcredit).1
        omega
      · cases hpure
    · cases hpure
  · cases hpure

/-! ## Runs within the deadlines -/

/-- Markets are created clean and close early enough, and the clock stays early enough, for the
deadlines of voiding and closing to fit. -/
structure Timely (rt : Runtime) (s : Chain) (a : Action) : Prop where
  clean : CreatesClean rt s a
  closes : ∀ ctx creator seeds closesAt oracle,
    a = .call ctx (.createMarket creator seeds closesAt oracle) →
      closesAt.toInt + 3601 + 604800 < 2 ^ 63
  clock : ∀ now, a = .tick now → now.toInt + 604800 < 2 ^ 63

structure InTime (m : Pubkey) (s : Chain) : Prop where
  now : s.now.toInt + 604800 < 2 ^ 63
  closes : ∀ mk, s.market m = some mk → mk.closesAt.toInt + 3601 + 604800 < 2 ^ 63
  settles : ∀ mk, s.market m = some mk → Ended mk → mk.settlesAt.toInt + 604800 < 2 ^ 63

/-- An ended market ended before, or just now. -/
theorem Change.settlesAt {rt : Runtime} {m : Pubkey} {s t : Chain} {op : Op} {mk mk' : Market}
    (h : Change rt m s t op) (hmk : s.market m = some mk) (hmk' : t.market m = some mk')
    (hended : Ended mk') :
    (Ended mk ∧ mk'.settlesAt = mk.settlesAt) ∨ mk'.settlesAt = s.now := by
  cases h with
  | idle hm =>
    cases market_inj hmk' (hm.trans hmk)
    exact .inl ⟨hended, rfl⟩
  | create _ _ _ _ _ _ hnone =>
    rw [hmk] at hnone
    cases hnone
  | join o side amount mk₁ mk₂ p' l hj hm =>
    cases market_inj hmk hj.market
    cases market_inj hmk' hm
    rw [hj.joined.market] at hended
    exact absurd hended (not_ended_of_unsettled (.inl hj.isOpen))
  | forceSettle mk₁ outcome _ _ _ hm =>
    cases market_inj hmk' hm
    exact .inr rfl
  | settleFromProof mk₁ outcome r _ _ _ _ _ _ _ hm =>
    cases market_inj hmk' hm
    exact .inr rfl
  | void mk₁ _ _ _ _ hm =>
    cases market_inj hmk' hm
    exact .inr rfl
  | claim o mk₁ p payout fee hc _ _ hm =>
    cases market_inj hmk hc.market
    cases market_inj hmk' hm
    exact .inl ⟨hended, rfl⟩
  | claimBond mk₁ h1 hended₁ _ _ hm =>
    cases market_inj hmk h1
    cases market_inj hmk' hm
    exact .inl ⟨hended₁, rfl⟩
  | close _ _ _ _ hm =>
    rw [hm] at hmk'
    cases hmk'
  | attest mk₁ n h1 hsettled hm =>
    cases market_inj hmk h1
    cases market_inj hmk' hm
    exact .inl ⟨.inl hsettled, rfl⟩

theorem InTime.of_none {m : Pubkey} {t : Chain} (hnow : t.now.toInt + 604800 < 2 ^ 63)
    (hnone : t.market m = none) : InTime m t := by
  have hno : ∀ {mk : Market}, t.market m ≠ some mk := by
    intro mk hmk
    rw [hnone] at hmk
    cases hmk
  exact ⟨hnow, fun _ hmk => absurd hmk hno, fun _ hmk => absurd hmk hno⟩

theorem InTime.of_createMarket {rt : Runtime} {creator : Pubkey} {seeds : MarketSeeds}
    {closesAt : Int64} {oracle : Pubkey} {s t : Chain}
    (h : createMarket rt creator seeds closesAt oracle s = .ok t)
    (hnow : t.now.toInt + 604800 < 2 ^ 63) (hcloses : closesAt.toInt + 3601 + 604800 < 2 ^ 63) :
    InTime (rt.marketAddress seeds) t := by
  obtain ⟨c, l₁, l, e, -, -, -, -, -, rfl⟩ := createMarket_ok h
  have hmarket : ∀ mk', Function.update s.market (rt.marketAddress seeds)
      (some (newMarket rt creator seeds closesAt oracle c.feeBps)) (rt.marketAddress seeds) =
        some mk' → newMarket rt creator seeds closesAt oracle c.feeBps = mk' := by
    intro mk' hmk'
    rw [Function.update_self] at hmk'
    exact Option.some.inj hmk'
  refine ⟨hnow, ?_, ?_⟩
  · intro mk' hmk'
    rw [← hmarket mk' hmk']
    exact hcloses
  · intro mk' hmk' hended
    rw [← hmarket mk' hmk'] at hended
    exact absurd hended (not_ended_of_unsettled (.inl rfl))

/-- A market that is there keeps its closing time, and is settled now if it is settled at all. -/
theorem InTime.change {rt : Runtime} {m : Pubkey} {s t : Chain} {op : Op} {mk : Market}
    (hs : InTime m s) (hc : Change rt m s t op) (hmk : s.market m = some mk)
    (hnow : t.now.toInt + 604800 < 2 ^ 63) : InTime m t := by
  refine ⟨hnow, ?_, ?_⟩
  · intro mk' hmk'
    by_cases hclose : op = .close
    · rw [hclose] at hc
      cases hc with
      | close _ _ _ _ hm =>
        rw [hm] at hmk'
        cases hmk'
    · obtain ⟨mk₁, h1, hnext⟩ := hc.next hmk hclose
      cases market_inj hmk' h1
      rw [hnext.closesAt]
      exact hs.closes mk hmk
  · intro mk' hmk' hended
    rcases hc.settlesAt hmk hmk' hended with ⟨hbefore, heq⟩ | heq
    · rw [heq]
      exact hs.settles mk hmk hbefore
    · rw [heq]
      exact hs.now

theorem Step.inTime {rt : Runtime} {m : Pubkey} {s t : Chain} {a : Action} (h : Step rt s a t)
    (htimely : Timely rt s a) (hs : InTime m s) : InTime m t := by
  have hnow : t.now.toInt + 604800 < 2 ^ 63 := by
    obtain ⟨ctx, ix, rfl, hix⟩ | ⟨now, rfl, -, rfl⟩ | ⟨k, x, rfl, rfl⟩ := h.cases
    · rw [(exec_near hix).now]
      exact hs.now
    · exact htimely.clock now rfl
    · exact hs.now
  have hc := h.change m
  cases hmk : s.market m with
  | some mk => exact hs.change hc hmk hnow
  | none =>
    by_cases hcreate : a.opOn rt m = .create
    · obtain ⟨ctx, ix, rfl, htarget, hop⟩ := eq_call_of_opOn hcreate Op.noConfusion
      cases ix with
      | createMarket creator seeds closesAt oracle =>
        cases htarget
        exact .of_createMarket h hnow (htimely.closes ctx creator seeds closesAt oracle rfl)
      | _ => cases hop
    · exact .of_none hnow (hc.market_none hcreate hmk)

/-! ## Refunds -/

/-- As long as the market is not closed, whatever else is done, every position with a stake is
paid back in full when its owner claims. -/
def Refunds (rt : Runtime) (m : Pubkey) (v : Chain) : Prop :=
  ∀ as w, Steps (Step rt) v as w → (∀ a ∈ as, a.opOn rt m ≠ .close) →
    ∀ o p, w.position (m, o) = some p → 0 < p.amountLamports →
      ∃ x, claim o m w = .ok x ∧ (x.positionAt m o).amountLamports = 0 ∧
        (x.lamports (.external o)).toNat =
          (w.lamports (.external o)).toNat + p.amountLamports.toNat

theorem refunds_of_void {rt : Runtime} {m : Pubkey} {v : Chain} {mk : Market}
    (hv : Reachable rt v) (hsound : PoolSound rt m v) (hmk : v.market m = some mk)
    (hvoid : mk.status = statusVoid) : Refunds rt m v := by
  intro as w hrun halive o p hp hpos
  obtain ⟨hwf, hpool, -⟩ := poolSound_of_run hrun hmk (hv.wellFormed m) hsound halive
  obtain ⟨mk', hmk', hfrozen⟩ := frozen_of_run hrun hmk (.inr hvoid) halive
  have hvoid' : mk'.status = statusVoid := hfrozen.status.trans hvoid
  have hc : Claimable w m o mk' p :=
    ⟨hmk', hp, .inr hvoid', (hwf.position o p hp hpos).owner, hpos⟩
  obtain ⟨payout, fee, x, hsplit, -, hx, hcharged⟩ :=
    claim_pays hwf hpool (hv.steps hrun).supply hc
  rw [claimSplit, if_pos hvoid', pure_eq_ok] at hsplit
  cases hsplit
  obtain ⟨mk₁, p₁, _, _, l, e, hc₁, -, -, rfl⟩ := claim_ok hx
  refine ⟨_, hx, ?_, hcharged.claimant⟩
  rw [positionAt_of_some (Function.update_self ..)]

/-- **Unwinding.** In a run within the deadlines, every open market can be voided at some later
clock value, after which every stake is paid back and the account can be closed; and neither
deadline ever overflows. -/
theorem unwinding {rt : Runtime} {g t : Chain} {as : List Action} (hg : Genesis g)
    (hclock : g.now.toInt + 604800 < 2 ^ 63)
    (h : Steps (guarded (Step rt) (Timely rt)) g as t) (m : Pubkey) :
    (∀ mk, t.market m = some mk → mk.status = statusOpen →
      ∃ now v, t.now ≤ now ∧ voidMarket m (t.at now) = .ok v ∧ Refunds rt m v ∧
        ∀ bs w, Steps (Step rt) v bs w → (∀ b ∈ bs, b.opOn rt m ≠ .close) →
          ∀ k, closeMarket k m w ≠ .error (.overflow .closeMarket)) ∧
    voidMarket m t ≠ .error (.overflow .voidMarket) ∧
    ∀ k, closeMarket k m t ≠ .error (.overflow .closeMarket) := by
  have hreach : Reachable rt t := ⟨g, as, hg, h.of_guarded⟩
  have hclean : Steps (guarded (Step rt) (CreatesClean rt)) g as t :=
    h.mono fun _ _ _ hs => ⟨hs.1, hs.2.clean⟩
  have hsound := (clean_run hg hclean m).2
  have htime : InTime m t := by
    refine h.invariant (I := InTime m) (fun _ _ _ _ hs => hs.1.inTime hs.2) ⟨hclock, ?_, ?_⟩
    · intro mk hmk
      rw [hg.market] at hmk
      cases hmk
    · intro mk hmk
      rw [hg.market] at hmk
      cases hmk
  refine ⟨?_, ?_, fun k => closeMarket_no_overflow k htime.settles hreach.supply⟩
  · intro mk hmk hopen
    have hcloses := htime.closes mk hmk
    have hnow := htime.now
    obtain ⟨now, hle, hlate, hbound⟩ : ∃ now : Int64, t.now ≤ now ∧
        mk.closesAt.toInt + 3600 < now.toInt ∧ now.toInt < 2 ^ 63 - 604800 :=
      exists_late (by omega) (by omega) (by omega)
    obtain ⟨v, hv, hvmk⟩ := exists_voidMarket (s := t.at now) hmk hopen hlate
    have htick : Step rt t (.tick now) (t.at now) := by
      rw [Step, Action.apply, require_of hle]
      rfl
    have hvoid : Step rt (t.at now) (.call ⟨[.voidMarket mk.creator m], 0⟩
        (.voidMarket mk.creator m)) v := hv
    have hreach_v : Reachable rt v := hreach.steps (.cons htick (.single hvoid))
    have hpool : PoolSound rt m v := by
      have hsteps := Steps.cons htick (.single hvoid)
      refine (poolSound_of_run hsteps hmk (hreach.wellFormed m) hsound ?_).2.1
      intro a ha hclose
      rcases List.mem_pair.mp ha with rfl | rfl
      · cases hclose
      · rw [opOn_of_target rfl] at hclose
        cases hclose
    refine ⟨now, v, hle, hv, refunds_of_void hreach_v hpool hvmk rfl, ?_⟩
    intro bs w hbs halive k
    refine closeMarket_no_overflow k ?_ (hreach_v.steps hbs).supply
    intro mk' hmk' _
    obtain ⟨mk₁, h1, hfrozen⟩ := frozen_of_run hbs hvmk (.inr rfl) halive
    cases market_inj hmk' h1
    rw [hfrozen.settlesAt]
    show now.toInt + 604800 < 2 ^ 63
    omega
  · refine voidMarket_no_overflow fun mk hmk => ?_
    have hcloses := htime.closes mk hmk
    omega

theorem timely_of_not_creates {rt : Runtime} {s : Chain} {a : Action} (h : a.creates = false)
    (hclock : ∀ now, a = .tick now → now.toInt + 604800 < 2 ^ 63) : Timely rt s a := by
  refine ⟨createsClean_of_not_creates h rt s, ?_, hclock⟩
  rintro ctx creator seeds closesAt oracle rfl
  cases h

/-- Bob's stake in a market that is not settled can be paid back. -/
theorem unwinding_sample :
    ∃ (t : Chain) (mk : Market) (v : Chain), t.market Sample.market = some mk ∧
      mk.status = statusOpen ∧
      (t.positionAt Sample.market Sample.bob).amountLamports = 1000000 ∧
      Refunds Sample.runtime Sample.market v := by
  obtain ⟨s₀, s, t, hinit, hcreate, hlife, hstands, hstake⟩ := Sample.lifetime_of_runsTo
    [Sample.join sideYes 1000000] (P := fun t => Sample.Stands statusOpen outcomeVoid t ∧
      (t.positionAt Sample.market Sample.bob).amountLamports = 1000000)
    (by decide +kernel) (by decide +kernel)
  have hrest := hlife.run.to_guarded (c := Timely Sample.runtime) (by
    intro a ha u
    rw [List.mem_singleton.mp ha]
    exact timely_of_not_creates rfl fun _ he => Action.noConfusion he)
  have hcreated : Timely Sample.runtime s₀ (Sample.create 1700001000 Sample.echo) := by
    refine ⟨fun m _ => Sample.clean_of_setUp hinit m, ?_, fun _ he => Action.noConfusion he⟩
    rintro ctx creator seeds closesAt oracle he
    cases he
    decide
  have hguarded : Steps (guarded (Step Sample.runtime) (Timely Sample.runtime)) Sample.genesis
      _ t :=
    .cons ⟨hinit, timely_of_not_creates rfl fun _ he => Action.noConfusion he⟩
      (.cons ⟨hcreate, hcreated⟩ hrest)
  obtain ⟨mk, hmk, hopen, -⟩ := hstands.market
  obtain ⟨_, v, -, -, hrefunds, -⟩ :=
    (unwinding Sample.genesis_ok (by decide) hguarded Sample.market).1 mk hmk hopen
  exact ⟨t, mk, v, hmk, hopen, hstake, hrefunds⟩

/-- A market that closes at the last time there is: voiding it aborts, whatever the clock says. -/
theorem stuck_open :
    ∃ t mk, Reachable Sample.runtime t ∧ t.market Sample.market = some mk ∧
      mk.status = statusOpen ∧ (t.positionAt Sample.market Sample.bob).amountLamports = 1000000 ∧
      ∀ now, voidMarket Sample.market (t.at now) = .error (.overflow .voidMarket) := by
  have hrun : Action.runsTo Sample.runtime
      [Sample.setUp, Sample.create 9223372036854775807 Sample.echo, Sample.join sideYes 1000000]
      Sample.genesis (fun t =>
        (t.market Sample.market).map (fun mk => (mk.status, mk.closesAt)) =
          some (statusOpen, 9223372036854775807) ∧
        (t.positionAt Sample.market Sample.bob).amountLamports = 1000000) = true := by
    decide +kernel
  obtain ⟨t, hsteps, hmarket, hstake⟩ := steps_of_runsTo hrun
  obtain ⟨mk, hmk, hpair⟩ := Option.map_eq_some_iff.mp hmarket
  obtain ⟨hopen, hcloses⟩ := Prod.mk.inj hpair
  refine ⟨t, mk, ⟨_, _, Sample.genesis_ok, hsteps⟩, hmk, hopen, hstake, ?_⟩
  intro now
  have hstatus : mk.status ≠ statusSettled ∧ mk.status ≠ statusVoid := by
    rw [hopen]
    decide
  have hload : (t.at now).loadMarket Sample.market = .ok mk := getOr_eq_ok.mpr hmk
  have hadd : checkedAddInt (.overflow .voidMarket : ProgramError) mk.closesAt
      gracePeriodSeconds = .error (.overflow .voidMarket) := by
    rw [hcloses]
    rfl
  rw [voidMarket, hload, ok_bind, require_of hstatus, ok_bind, hadd]
  rfl

end Stoppage

import Stoppage.Instance.Change

/-! # Where receipts come from

A receipt is written once and never changed, so the receipt that a market is settled by has exactly
one `resolve_market` behind it. `receipt_provenance` finds it in the run; `proof_gating` follows a
settled market back to it; and `receipt_fresh_iff` says when it was executed within the lifetime of
the market it settles.
-/

namespace Stoppage
open Fallible BalanceSheet TransitionSystem MarketProgram SettlementProgram
set_option autoImplicit false

/-! ## One step -/

/-- `a`, executed in `u`, is the `resolve_market` that writes the receipt `r` of the market `m`:
once the rent is paid, the validator gives the verdict that `r` records. -/
structure Wrote (rt : Runtime) (m : Pubkey) (u : Chain) (a : Action) (r : Resolution) : Prop where
  market : r.market = m
  outcome : r.outcome ≤ 1
  call : ∃ ctx statement data accounts l,
    a = .call ctx (.resolveMarket r.resolver (.market m) statement r.merkleRoot r.outcome data
      (.external r.validatorProgram :: accounts)) ∧
    Aside u { u with lamports := l } ∧
    Verdict rt ctx { u with lamports := l } r.validatorProgram data accounts r.outcome

theorem Wrote.opOn {rt : Runtime} {m : Pubkey} {u : Chain} {a : Action} {r : Resolution}
    (h : Wrote rt m u a r) (m' : Pubkey) : a.opOn rt m' = .idle := by
  obtain ⟨ctx, statement, data, accounts, l, rfl, -, -⟩ := h.call
  exact opOn_of_not_target (Option.some_ne_none m').symm

theorem Wrote.fresh {rt : Runtime} {m : Pubkey} {u v : Chain} {a : Action} {r : Resolution}
    (h : Wrote rt m u a r) (hstep : Step rt u a v) : u.resolution m = none := by
  obtain ⟨ctx, statement, data, accounts, l, rfl, -, -⟩ := h.call
  obtain ⟨_, _, _, _, hnone, -⟩ := resolveMarket_ok hstep
  exact hnone

theorem exec_receipt {rt : Runtime} {ctx : TxContext} {ix : Instruction} {s t : Chain}
    (h : exec rt ctx ix s = .ok t) (m : Pubkey) :
    t.resolution m = s.resolution m ∨
    ∃ r, s.resolution m = none ∧ t.resolution m = some r ∧ Wrote rt m s (.call ctx ix) r := by
  cases hres : ix.resolves with
  | false => exact .inl (by rw [(exec_near h).resolution hres])
  | true =>
    cases ix with
    | resolveMarket resolver b statement root outcome data remaining =>
      by_cases hb : ∃ m', b = .market m'
      swap
      · exact .inl (by rw [(resolveMarket_stray_aside (fun m hm => hb ⟨m, hm⟩) h).resolution])
      obtain ⟨m', rfl⟩ := hb
      obtain ⟨l, v, accounts, e, hnone, hout, -, rfl, hpaid, hverdict, rfl⟩ := resolveMarket_ok h
      by_cases hm : m = m'
      · subst hm
        refine .inr ⟨_, hnone, Function.update_self .., rfl, hout, ?_⟩
        exact ⟨ctx, statement, data, accounts, l, rfl, Aside.of_transfer hpaid, hverdict⟩
      · exact .inl (Function.update_of_ne hm _ _)
    | _ => cases hres

theorem Step.receipt {rt : Runtime} {s t : Chain} {a : Action} (h : Step rt s a t) (m : Pubkey) :
    t.resolution m = s.resolution m ∨
    ∃ r, s.resolution m = none ∧ t.resolution m = some r ∧ Wrote rt m s a r := by
  obtain ⟨ctx, ix, rfl, hix⟩ | ⟨now, rfl, -, rfl⟩ | ⟨k, x, rfl, rfl⟩ := h.cases
  · exact exec_receipt hix m
  · exact .inl rfl
  · exact .inl rfl

theorem Step.receipt_kept {rt : Runtime} {s t : Chain} {a : Action} (h : Step rt s a t)
    {m : Pubkey} {r : Resolution} (hr : s.resolution m = some r) : t.resolution m = some r := by
  rcases h.receipt m with heq | ⟨r', hnone, -, -⟩
  · rw [heq, hr]
  · rw [hr] at hnone
    cases hnone

/-! ## Runs -/

section Runs
variable {rt : Runtime} {s t : Chain} {as : List Action} {m : Pubkey} {r : Resolution}

theorem receipt_kept (h : Steps (Step rt) s as t) (hr : s.resolution m = some r) :
    t.resolution m = some r :=
  h.invariant (I := fun u => u.resolution m = some r) (fun _ _ _ _ hs => hs.receipt_kept) hr

/-- One of the actions `as`, which lead from `s` to `t`, writes the receipt `r`. -/
def WrittenIn (rt : Runtime) (m : Pubkey) (s : Chain) (as : List Action) (t : Chain)
    (r : Resolution) : Prop :=
  ∃ pre a post u v, as = pre ++ a :: post ∧ Steps (Step rt) s pre u ∧ Step rt u a v ∧
    Steps (Step rt) v post t ∧ Wrote rt m u a r

/-- **Provenance.** A receipt that was not there at the start was written by some step. -/
theorem receipt_provenance (h : Steps (Step rt) s as t) (hs : s.resolution m = none)
    (ht : t.resolution m = some r) : WrittenIn rt m s as t r := by
  have hfirst : ¬ s.resolution m ≠ none := not_not.mpr hs
  have hlast : t.resolution m ≠ none := by
    rw [ht]
    exact Option.some_ne_none r
  obtain ⟨pre, a, post, u, v, has, hpre, hstep, hpost, hu, hv⟩ :=
    h.exists_switch (P := fun u => u.resolution m ≠ none) hfirst hlast
  refine ⟨pre, a, post, u, v, has, hpre, hstep, hpost, ?_⟩
  rcases hstep.receipt m with heq | ⟨r', -, hr', hwrote⟩
  · exact absurd (heq ▸ not_not.mp hu) hv
  · have hkept := receipt_kept hpost hr'
    rw [ht] at hkept
    cases hkept
    exact hwrote

theorem WrittenIn.market (h : WrittenIn rt m s as t r) : r.market = m := by
  obtain ⟨pre, a, post, u, v, -, -, -, -, hwrote⟩ := h
  exact hwrote.market

theorem WrittenIn.fresh (h : WrittenIn rt m s as t r) : s.resolution m = none := by
  obtain ⟨pre, a, post, u, v, -, hpre, hstep, -, hwrote⟩ := h
  have hnone := hwrote.fresh hstep
  cases hs : s.resolution m with
  | none => rfl
  | some r' =>
    rw [receipt_kept hpre hs] at hnone
    cases hnone

end Runs

/-! ## Settled markets have a proof -/

/-- A market settled without the override is settled as its receipt says, by its own oracle. -/
def Gated (m : Pubkey) (s : Chain) : Prop :=
  ∀ mk, s.market m = some mk → mk.status = statusSettled →
    ∃ r, s.resolution m = some r ∧ r.outcome = mk.outcome ∧ r.validatorProgram = mk.oracle

theorem Step.gated {rt : Runtime} {s t : Chain} {a : Action} (h : Step rt s a t) {m : Pubkey}
    (hforce : a.opOn rt m ≠ .forceSettle) (hg : Gated m s) : Gated m t := by
  have hsame : ∀ mk mk', s.market m = some mk → t.market m = some mk' → mk'.status = mk.status →
      mk'.outcome = mk.outcome → mk'.oracle = mk.oracle →
      ∀ mk₁, t.market m = some mk₁ → mk₁.status = statusSettled →
        ∃ r, t.resolution m = some r ∧ r.outcome = mk₁.outcome ∧
          r.validatorProgram = mk₁.oracle := by
    intro mk mk' hs ht hstatus hout horacle mk₁ h1 hset
    rw [ht] at h1
    cases h1
    obtain ⟨r, hr, ho, hv⟩ := hg mk hs (hstatus ▸ hset)
    exact ⟨r, h.receipt_kept hr, ho.trans hout.symm, hv.trans horacle.symm⟩
  have hother : ∀ mk', t.market m = some mk' → mk'.status ≠ statusSettled → Gated m t := by
    intro mk' ht hne mk₁ h1 hset
    rw [ht] at h1
    cases h1
    exact absurd hset hne
  have hc := h.change m
  generalize a.opOn rt m = op at hc hforce
  cases hc with
  | idle hm =>
    intro mk hmk
    exact hsame mk mk (hm ▸ hmk) hmk rfl rfl rfl mk hmk
  | create creator seeds closesAt oracle feeBps _ _ _ _ hm =>
    exact hother _ hm (show statusOpen ≠ statusSettled by decide)
  | join o side amount mk mk' p' l hj hm =>
    refine hsame mk mk' hj.market hm ?_ ?_ ?_
    · rw [hj.joined.market]
    · rw [hj.joined.market]
    · rw [hj.joined.market]
  | forceSettle => exact absurd rfl hforce
  | settleFromProof mk outcome r hmk _ _ hr _ ho hv hm =>
    intro mk₁ h1 _
    rw [hm] at h1
    cases h1
    exact ⟨r, h.receipt_kept hr, ho, hv⟩
  | void mk _ _ _ _ hm => exact hother _ hm (show statusVoid ≠ statusSettled by decide)
  | claim o mk p payout fee hcl _ _ hm => exact hsame mk mk hcl.market hm rfl rfl rfl
  | claimBond mk hmk _ _ _ hm => exact hsame mk _ hmk hm rfl rfl rfl
  | close mk _ _ _ hm =>
    intro mk' hmk'
    rw [hm] at hmk'
    cases hmk'
  | attest mk n hmk _ hm => exact hsame mk _ hmk hm rfl rfl rfl

theorem gated_of_run {rt : Runtime} {s t : Chain} {as : List Action} {m : Pubkey}
    (h : Steps (Step rt) s as t) (hforce : ∀ a ∈ as, a.opOn rt m ≠ .forceSettle)
    (hg : Gated m s) : Gated m t :=
  h.invariant (I := Gated m) (fun _ a _ ha hs => hs.gated (hforce a ha)) hg

/-- **Proof gating.** Without the override a settled market has a receipt, at its canonical address
and owned by the settlement program, that the market's oracle answered for; and the override takes
the key of the protocol configuration. -/
theorem proof_gating {rt : Runtime} {g t : Chain} {as : List Action} (hg : Genesis g)
    (h : Steps (Step rt) g as t) (m : Pubkey) :
    ((∀ a ∈ as, a.opOn rt m ≠ .forceSettle) →
      ∀ mk, t.market m = some mk → mk.status = statusSettled →
        ∃ r, t.resolution m = some r ∧ t.owner (.resolution m) = settlementProgramId ∧
          r.market = m ∧ r.outcome = mk.outcome ∧ r.validatorProgram = mk.oracle ∧
          WrittenIn rt m g as t r) ∧
    ∀ ctx k outcome u, Step rt t (.call ctx (.forceSettle k m outcome)) u →
      ∃ c, t.protocolConfig = some c ∧ c.authority = k := by
  constructor
  · intro hforce mk hmk hset
    have hgated : Gated m g := by
      intro mk' hmk'
      rw [hg.market] at hmk'
      cases hmk'
    obtain ⟨r, hr, ho, hv⟩ := gated_of_run h hforce hgated mk hmk hset
    have hwritten := receipt_provenance h (hg.resolution m) hr
    exact ⟨r, hr, owner_resolution_eq_settlement.mpr ⟨r, hr⟩, hwritten.market, ho, hv, hwritten⟩
  · intro ctx k outcome u hu
    obtain ⟨c, mk, e, hc, hauth, -⟩ := forceSettle_ok hu
    exact ⟨c, hc, hauth⟩

theorem proof_gating_sample :
    ∃ t r, Reachable Sample.runtime t ∧ Sample.Stands statusSettled sideYes t ∧
      t.resolution Sample.market = some r ∧ r.outcome = sideYes := by
  let as := [Sample.setUp, Sample.create 1700001000 Sample.echo, Sample.resolve 0 [1],
    Sample.settle 0]
  have hrun : Action.runsTo Sample.runtime as Sample.genesis
      (Sample.Stands statusSettled sideYes) = true := by decide +kernel
  obtain ⟨t, hsteps, hstands⟩ := steps_of_runsTo hrun
  have hforce : ∀ a ∈ as, a.opOn Sample.runtime Sample.market ≠ .forceSettle := by decide +kernel
  obtain ⟨mk, hmk, hset, hout⟩ := hstands.market
  obtain ⟨r, hr, -, -, ho, -⟩ :=
    (proof_gating Sample.genesis_ok hsteps Sample.market).1 hforce mk hmk hset
  exact ⟨t, r, ⟨Sample.genesis, as, Sample.genesis_ok, hsteps⟩, hstands, hr, ho.trans hout⟩

/-! ## Fresh receipts -/

theorem receipt_of_create {rt : Runtime} {s t : Chain} {a : Action} {m : Pubkey}
    (h : Step rt s a t) (ha : a.opOn rt m = .create) : t.resolution m = s.resolution m := by
  rcases h.receipt m with heq | ⟨r, -, -, hwrote⟩
  · exact heq
  · rw [hwrote.opOn m] at ha
    cases ha

theorem receipt_of_settle {rt : Runtime} {s t : Chain} {a : Action} {m : Pubkey}
    (h : Step rt s a t) (ha : a.opOn rt m = .settleFromProof) : ∃ r, s.resolution m = some r := by
  have hchange := h.change m
  rw [ha] at hchange
  cases hchange with
  | settleFromProof mk outcome r _ _ _ hr => exact ⟨r, hr⟩

/-- **Freshness.** A market is settled by a receipt of its own lifetime exactly when there was none
at its creation. -/
theorem receipt_fresh_iff {rt : Runtime} {s₀ s u v : Chain} {as : List Action} {c : Action}
    {m : Pubkey} (hlife : Lifetime rt m s₀ s as u) (hsettle : Step rt u c v)
    (hc : c.opOn rt m = .settleFromProof) :
    ∃ r, u.resolution m = some r ∧ (WrittenIn rt m s as u r ↔ s₀.resolution m = none) := by
  obtain ⟨a, hcreate, ha⟩ := hlife.created
  have hkeep := receipt_of_create hcreate ha
  obtain ⟨r, hr⟩ := receipt_of_settle hsettle hc
  refine ⟨r, hr, ?_, ?_⟩
  · intro hwritten
    rw [← hkeep]
    exact hwritten.fresh
  · intro hnone
    exact receipt_provenance hlife.run (hkeep.trans hnone) hr

theorem receipt_fresh_iff_sample :
    ∃ s₀ s u r, Lifetime Sample.runtime Sample.market s₀ s [Sample.resolve 0 [1]] u ∧
      u.resolution Sample.market = some r ∧
      (WrittenIn Sample.runtime Sample.market s [Sample.resolve 0 [1]] u r ↔
        s₀.resolution Sample.market = none) := by
  have hrun : Action.runsTo Sample.runtime
      ([Sample.setUp, Sample.create 1700001000 Sample.echo, Sample.resolve 0 [1]] ++
        [Sample.settle 0]) Sample.genesis (Sample.Stands statusSettled sideYes) = true := by
    decide +kernel
  obtain ⟨v, hsteps, -⟩ := steps_of_runsTo hrun
  obtain ⟨u, hbefore, hrest⟩ := Steps.append_iff.mp hsteps
  obtain ⟨v', hsettle, -⟩ := Steps.cons_iff.mp hrest
  obtain ⟨s₀, s, -, -, hlife⟩ := exists_lifetime (m := Sample.market) [Sample.setUp] _ _
    Sample.genesis_ok hbefore rfl (by decide)
  obtain ⟨r, hr, hiff⟩ := receipt_fresh_iff hlife hsettle rfl
  exact ⟨s₀, s, u, r, hlife, hr, hiff⟩

namespace Sample

/-- The first lifetime of the market, resolved, settled and closed a week later, and the creation
of a second one at the same address. -/
def secondLifetime : List Action :=
  [setUp, create 1700001000 echo, resolve 0 [1], settle 0, .tick 1700604801,
    call (.closeMarket alice market), create 1700700000 echo]

end Sample

/-- The second market is settled as soon as it is created, by the receipt of the first. -/
theorem stale_receipt_settles :
    ∃ s₀ s v r, Lifetime Sample.runtime Sample.market s₀ s [] s ∧
      Step Sample.runtime s (Sample.settle 0) v ∧ Sample.Stands statusSettled sideYes v ∧
      s.resolution Sample.market = some r ∧
      ¬ WrittenIn Sample.runtime Sample.market s [] s r := by
  have hrun : Action.runsTo Sample.runtime (Sample.secondLifetime ++ [Sample.settle 0])
      Sample.genesis (Sample.Stands statusSettled sideYes) = true := by decide +kernel
  obtain ⟨v, hsteps, hstands⟩ := steps_of_runsTo hrun
  obtain ⟨s, hbefore, hrest⟩ := Steps.append_iff.mp hsteps
  have hsettle := Steps.single_iff.mp hrest
  obtain ⟨s₀, s', -, -, hlife⟩ := exists_lifetime (m := Sample.market)
    Sample.secondLifetime.dropLast _ [] Sample.genesis_ok hbefore rfl (List.forall_mem_nil _)
  cases Steps.nil_iff.mp hlife.run
  obtain ⟨r, hr⟩ := receipt_of_settle (m := Sample.market) hsettle rfl
  refine ⟨s₀, _, v, r, hlife, hsettle, hstands, hr, ?_⟩
  intro hwritten
  rw [hwritten.fresh] at hr
  cases hr

end Stoppage

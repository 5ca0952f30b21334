import Stoppage.Receipt.Provenance

/-! # The life of a market

What holds along a whole lifetime of a market: its terms are fixed at creation, betting ends once,
an ended market is frozen until it is closed, and its bond and each of its positions are paid once.
A receipt fixes the outcome of an open market up to voiding, and bounds no join: betting ends at
`closes_at` or with the settlement.
-/

namespace Stoppage
open Fallible BalanceSheet TransitionSystem MarketProgram SettlementProgram
set_option autoImplicit false

/-! ## Terms and frozen markets -/

/-- What `create_market` fixes. -/
structure SameTerms (mk mk' : Market) : Prop where
  kind : mk'.kind = mk.kind
  matchId : mk'.matchId = mk.matchId
  team : mk'.team = mk.team
  paramU64 : mk'.paramU64 = mk.paramU64
  creator : mk'.creator = mk.creator
  oracle : mk'.oracle = mk.oracle
  bondLamports : mk'.bondLamports = mk.bondLamports
  closesAt : mk'.closesAt = mk.closesAt
  feeBps : mk'.feeBps = mk.feeBps

/-- What is left to change of a frozen market: the bond flag and the count of verifications. -/
structure Frozen (mk mk' : Market) : Prop extends SameTerms mk mk' where
  status : mk'.status = mk.status
  outcome : mk'.outcome = mk.outcome
  settlesAt : mk'.settlesAt = mk.settlesAt
  yesPool : mk'.yesPool = mk.yesPool
  noPool : mk'.noPool = mk.noPool

/-- What no step undoes before the market is closed. -/
structure Next (mk mk' : Market) : Prop extends SameTerms mk mk' where
  bondClaimed : mk.bondClaimed = true → mk'.bondClaimed = true
  shut : mk.status ≠ statusOpen → mk'.status ≠ statusOpen

theorem SameTerms.refl (mk : Market) : SameTerms mk mk := by constructor <;> rfl

theorem SameTerms.trans {a b c : Market} (h : SameTerms a b) (h' : SameTerms b c) :
    SameTerms a c :=
  ⟨h'.kind.trans h.kind, h'.matchId.trans h.matchId, h'.team.trans h.team,
    h'.paramU64.trans h.paramU64, h'.creator.trans h.creator, h'.oracle.trans h.oracle,
    h'.bondLamports.trans h.bondLamports, h'.closesAt.trans h.closesAt, h'.feeBps.trans h.feeBps⟩

theorem Frozen.refl (mk : Market) : Frozen mk mk := ⟨SameTerms.refl mk, rfl, rfl, rfl, rfl, rfl⟩

theorem Frozen.trans {a b c : Market} (h : Frozen a b) (h' : Frozen b c) : Frozen a c :=
  ⟨h.toSameTerms.trans h'.toSameTerms, h'.status.trans h.status, h'.outcome.trans h.outcome,
    h'.settlesAt.trans h.settlesAt, h'.yesPool.trans h.yesPool, h'.noPool.trans h.noPool⟩

theorem Frozen.ended {mk mk' : Market} (h : Frozen mk mk') (hended : Ended mk) : Ended mk' := by
  unfold Ended
  rw [h.status]
  exact hended

theorem not_ended_of_unsettled {mk : Market}
    (h : mk.status = statusOpen ∨ mk.status = statusAwaiting) : ¬ Ended mk := by
  unfold Ended
  rcases h with h | h
  · rw [h]
    decide
  · rw [h]
    decide

/-! ## One step -/

section OneStep
variable {rt : Runtime} {m : Pubkey} {s t : Chain} {op : Op} {mk : Market}

theorem Change.next (h : Change rt m s t op) (hmk : s.market m = some mk) (hclose : op ≠ .close) :
    ∃ mk', t.market m = some mk' ∧ Next mk mk' := by
  have hsettled : statusSettled ≠ statusOpen := by decide
  have hvoid : statusVoid ≠ statusOpen := by decide
  cases h with
  | idle hm => exact ⟨mk, hm.trans hmk, .refl mk, id, id⟩
  | create _ _ _ _ _ _ hnone =>
    rw [hmk] at hnone
    cases hnone
  | join o side amount mk₁ mk' p' l hj hm =>
    cases market_inj hmk hj.market
    refine ⟨mk', hm, ?_⟩
    rw [hj.joined.market]
    exact ⟨by constructor <;> rfl, id, id⟩
  | forceSettle mk₁ outcome h1 _ _ hm =>
    cases market_inj hmk h1
    exact ⟨_, hm, by constructor <;> rfl, id, fun _ => hsettled⟩
  | settleFromProof mk₁ outcome r h1 _ _ _ _ _ _ hm =>
    cases market_inj hmk h1
    exact ⟨_, hm, by constructor <;> rfl, id, fun _ => hsettled⟩
  | void mk₁ h1 _ _ _ hm =>
    cases market_inj hmk h1
    exact ⟨_, hm, by constructor <;> rfl, id, fun _ => hvoid⟩
  | claim o mk₁ p payout fee hc _ _ hm =>
    cases market_inj hmk hc.market
    exact ⟨mk, hm, .refl mk, id, id⟩
  | claimBond mk₁ h1 _ _ _ hm =>
    cases market_inj hmk h1
    exact ⟨_, hm, by constructor <;> rfl, fun _ => rfl, id⟩
  | close => exact absurd rfl hclose
  | attest mk₁ n h1 _ hm =>
    cases market_inj hmk h1
    exact ⟨_, hm, by constructor <;> rfl, id, id⟩

theorem Change.frozen (h : Change rt m s t op) (hmk : s.market m = some mk) (hended : Ended mk)
    (hclose : op ≠ .close) : (∃ mk', t.market m = some mk' ∧ Frozen mk mk') ∧ op ≠ .join := by
  cases h with
  | idle hm => exact ⟨⟨mk, hm.trans hmk, .refl mk⟩, Op.noConfusion⟩
  | create _ _ _ _ _ _ hnone =>
    rw [hmk] at hnone
    cases hnone
  | join o side amount mk₁ mk' p' l hj =>
    cases market_inj hmk hj.market
    exact absurd hended (not_ended_of_unsettled (.inl hj.isOpen))
  | forceSettle mk₁ outcome h1 _ hstatus =>
    cases market_inj hmk h1
    exact absurd hended (not_ended_of_unsettled hstatus)
  | settleFromProof mk₁ outcome r h1 _ hstatus =>
    cases market_inj hmk h1
    exact absurd hended (not_ended_of_unsettled hstatus)
  | void mk₁ h1 hset hvoid =>
    cases market_inj hmk h1
    exact absurd hended (not_or.mpr ⟨hset, hvoid⟩)
  | claim o mk₁ p payout fee hc _ _ hm =>
    cases market_inj hmk hc.market
    exact ⟨⟨mk, hm, .refl mk⟩, Op.noConfusion⟩
  | claimBond mk₁ h1 _ _ _ hm =>
    cases market_inj hmk h1
    exact ⟨⟨_, hm, by constructor <;> first | rfl | (constructor <;> rfl)⟩, Op.noConfusion⟩
  | close => exact absurd rfl hclose
  | attest mk₁ n h1 _ hm =>
    cases market_inj hmk h1
    exact ⟨⟨_, hm, by constructor <;> first | rfl | (constructor <;> rfl)⟩, Op.noConfusion⟩

end OneStep

/-! ## Frozen until closed -/

section Runs
variable {rt : Runtime} {m : Pubkey} {s t : Chain} {as : List Action} {mk : Market}

theorem terms_of_run (h : Steps (Step rt) s as t) (hmk : s.market m = some mk)
    (halive : ∀ a ∈ as, a.opOn rt m ≠ .close) :
    ∃ mk', t.market m = some mk' ∧ SameTerms mk mk' := by
  refine h.invariant (I := fun u => ∃ mk', u.market m = some mk' ∧ SameTerms mk mk') ?_
    ⟨mk, hmk, .refl mk⟩
  rintro u a v ha hs ⟨mk₁, h1, hterms⟩
  obtain ⟨mk₂, h2, hnext⟩ := (hs.change m).next h1 (halive a ha)
  exact ⟨mk₂, h2, hterms.trans hnext.toSameTerms⟩

theorem frozen_of_run (h : Steps (Step rt) s as t) (hmk : s.market m = some mk)
    (hended : Ended mk) (halive : ∀ a ∈ as, a.opOn rt m ≠ .close) :
    ∃ mk', t.market m = some mk' ∧ Frozen mk mk' := by
  refine h.invariant (I := fun u => ∃ mk', u.market m = some mk' ∧ Frozen mk mk') ?_
    ⟨mk, hmk, .refl mk⟩
  rintro u a v ha hs ⟨mk₁, h1, hfrozen⟩
  obtain ⟨⟨mk₂, h2, hfrozen'⟩, -⟩ := (hs.change m).frozen h1 (hfrozen.ended hended) (halive a ha)
  exact ⟨mk₂, h2, hfrozen.trans hfrozen'⟩

theorem no_join_of_ended (h : Steps (Step rt) s as t) (hmk : s.market m = some mk)
    (hended : Ended mk) (halive : ∀ a ∈ as, a.opOn rt m ≠ .close) :
    ∀ a ∈ as, a.opOn rt m ≠ .join := by
  intro a ha
  obtain ⟨pre, post, u, v, rfl, hpre, hstep, -⟩ := h.exists_of_mem ha
  obtain ⟨mk₁, h1, hfrozen⟩ := frozen_of_run hpre hmk hended
    fun b hb => halive b (List.mem_append_left _ hb)
  exact ((hstep.change m).frozen h1 (hfrozen.ended hended) (halive a ha)).2

end Runs

/-! ## Paid once -/

def BondPaid (m : Pubkey) (s : Chain) : Prop :=
  ∃ mk, s.market m = some mk ∧ mk.bondClaimed = true

def PaidOff (m o : Pubkey) (s : Chain) : Prop :=
  ∃ mk, s.market m = some mk ∧ Ended mk ∧ (s.positionAt m o).amountLamports = 0

section Latches
variable {rt : Runtime} {m o : Pubkey} {s t : Chain} {op : Op}

theorem Change.bondPaid (h : Change rt m s t op) (hb : BondPaid m s) (hclose : op ≠ .close) :
    BondPaid m t := by
  obtain ⟨mk, hmk, hpaid⟩ := hb
  obtain ⟨mk', hmk', hnext⟩ := h.next hmk hclose
  exact ⟨mk', hmk', hnext.bondClaimed hpaid⟩

theorem Change.claimBond_once (h : Change rt m s t .claimBond) : ¬ BondPaid m s ∧ BondPaid m t := by
  cases h with
  | claimBond mk hmk _ hbond _ hm =>
    refine ⟨?_, ⟨_, hm, rfl⟩⟩
    rintro ⟨mk₁, h1, hpaid⟩
    cases market_inj hmk h1
    rw [hbond] at hpaid
    cases hpaid

theorem Change.position_kept (h : Change rt m s t op) (hjoin : op ≠ .join) (o : Pubkey) :
    t.positionAt m o = s.positionAt m o ∨ (t.positionAt m o).amountLamports = 0 := by
  cases h with
  | join => exact absurd rfl hjoin
  | claim o' mk p payout fee _ _ _ _ hp hother =>
    by_cases ho : o = o'
    · subst ho
      rw [positionAt_of_some hp]
      exact .inr rfl
    · exact .inl (positionAt_congr (hother o ho))
  | idle _ hp => exact .inl (positionAt_congr (hp o))
  | create _ _ _ _ _ _ _ _ _ _ hp => exact .inl (positionAt_congr (hp o))
  | forceSettle _ _ _ _ _ _ hk => exact .inl (positionAt_congr (hk.position o))
  | settleFromProof _ _ _ _ _ _ _ _ _ _ _ hk => exact .inl (positionAt_congr (hk.position o))
  | void _ _ _ _ _ _ hk => exact .inl (positionAt_congr (hk.position o))
  | claimBond _ _ _ _ _ _ hp => exact .inl (positionAt_congr (hp o))
  | close _ _ _ _ _ hp => exact .inl (positionAt_congr (hp o))
  | attest _ _ _ _ _ hk => exact .inl (positionAt_congr (hk.position o))

theorem Change.paidOff (h : Change rt m s t op) (hp : PaidOff m o s) (hclose : op ≠ .close) :
    PaidOff m o t := by
  obtain ⟨mk, hmk, hended, hzero⟩ := hp
  obtain ⟨⟨mk', hmk', hfrozen⟩, hjoin⟩ := h.frozen hmk hended hclose
  refine ⟨mk', hmk', hfrozen.ended hended, ?_⟩
  rcases h.position_kept hjoin o with heq | hz
  · rw [heq]
    exact hzero
  · exact hz

theorem Change.claim_once (h : Change rt m s t (.claim o)) : ¬ PaidOff m o s ∧ PaidOff m o t := by
  cases h with
  | claim _ mk p payout fee hc _ _ hm hp =>
    refine ⟨?_, mk, hm, hc.ended, by rw [positionAt_of_some hp]⟩
    rintro ⟨mk₁, -, -, hzero⟩
    rw [hc.positionAt] at hzero
    have hpos := hc.positive
    rw [hzero] at hpos
    exact absurd hpos (by decide)

end Latches

/-! ## Finality -/

/-- **Finality and single payment.** An ended market is frozen until it is closed and takes no
join; only its creator closes it, more than a week after the end; the bond is paid once, and so is
each position, which stays empty. -/
theorem finality {rt : Runtime} {m : Pubkey} {s₀ s t : Chain} {as : List Action}
    (h : Lifetime rt m s₀ s as t) :
    (∀ mk, t.market m = some mk → Ended mk → ∀ bs u, Steps (Step rt) t bs u →
      (∀ b ∈ bs, b.opOn rt m ≠ .close) →
      (∃ mk', u.market m = some mk' ∧ Frozen mk mk') ∧ ∀ b ∈ bs, b.opOn rt m ≠ .join) ∧
    (∀ ctx k u, Step rt t (.call ctx (.closeMarket k m)) u →
      ∃ mk, t.market m = some mk ∧ Ended mk ∧ mk.creator = k ∧
        mk.settlesAt.toInt + 604800 < t.now.toInt) ∧
    as.countP (fun a => a.opOn rt m = .claimBond) ≤ 1 ∧
    ∀ o, as.countP (fun a => a.opOn rt m = .claim o) ≤ 1 ∧
      ((∃ a ∈ as, a.opOn rt m = .claim o) → (t.positionAt m o).amountLamports = 0) := by
  have hkeep : ∀ o, ∀ u a v, a ∈ as → Step rt u a v → PaidOff m o u → PaidOff m o v :=
    fun o u a v ha hs hp => (hs.change m).paidOff hp (h.alive a ha)
  have honce : ∀ o, ∀ u a v, Step rt u a v → a.opOn rt m = .claim o →
      ¬ PaidOff m o u ∧ PaidOff m o v := by
    intro o u a v hs ha
    have hc := hs.change m
    rw [ha] at hc
    exact hc.claim_once
  refine ⟨?_, ?_, ?_, ?_⟩
  · intro mk hmk hended bs u hbs halive
    exact ⟨frozen_of_run hbs hmk hended halive, no_join_of_ended hbs hmk hended halive⟩
  · intro ctx k u hu
    obtain ⟨mk, l, e, hmk, hended, hcreator, hlate, -⟩ := closeMarket_ok hu
    exact ⟨mk, hmk, hended, hcreator, hlate⟩
  · refine h.run.count_le_one (L := BondPaid m) ?_ ?_
    · intro u a v ha hs hb
      exact (hs.change m).bondPaid hb (h.alive a ha)
    · intro u a v _ hs hq
      have hc := hs.change m
      rw [of_decide_eq_true hq] at hc
      exact hc.claimBond_once
  · intro o
    constructor
    · refine h.run.count_le_one (L := PaidOff m o) (hkeep o) ?_
      intro u a v _ hs hq
      exact honce o u a v hs (of_decide_eq_true hq)
    · rintro ⟨a, ha, hop⟩
      obtain ⟨pre, post, u, v, rfl, -, hstep, hpost⟩ := h.run.exists_of_mem ha
      have hpaid := hpost.invariant (I := PaidOff m o)
        (fun w b x hb => hkeep o w b x (List.mem_append_right _ (List.mem_cons_of_mem _ hb)))
        (honce o u a v hstep hop).2
      obtain ⟨mk, -, -, hzero⟩ := hpaid
      exact hzero

/-- A market voided an hour after its close, and a position paid back from it. -/
theorem finality_sample :
    ∃ s₀ s t, Lifetime Sample.runtime Sample.market s₀ s
        [Sample.join sideYes 1000000, .tick 1700004601, Sample.void, Sample.claim] t ∧
      (t.positionAt Sample.market Sample.bob).amountLamports = 0 := by
  obtain ⟨s₀, s, t, -, -, hlife, -⟩ := Sample.lifetime_of_runsTo
    [Sample.join sideYes 1000000, .tick 1700004601, Sample.void, Sample.claim]
    (P := Sample.Stands statusVoid outcomeVoid) (by decide +kernel) (by decide +kernel)
  have hclaim : ∃ a ∈ [Sample.join sideYes 1000000, .tick 1700004601, Sample.void, Sample.claim],
      a.opOn Sample.runtime Sample.market = .claim Sample.bob := by decide +kernel
  exact ⟨s₀, s, t, hlife, ((finality hlife).2.2.2 Sample.bob).2 hclaim⟩

/-! ## Receipts and outcomes -/

/-- What an open market with the receipt `r` can become. -/
def Agrees (m : Pubkey) (r : Resolution) (s : Chain) : Prop :=
  s.resolution m = some r ∧ ∃ mk, s.market m = some mk ∧
    (mk.status = statusOpen ∨
      (mk.status = statusSettled ∧ mk.outcome = r.outcome) ∨
      (mk.status = statusVoid ∧ mk.closesAt.toInt + 3600 < mk.settlesAt.toInt))

theorem Step.agrees {rt : Runtime} {m : Pubkey} {r : Resolution} {s t : Chain} {a : Action}
    (h : Step rt s a t) (hclose : a.opOn rt m ≠ .close) (hforce : a.opOn rt m ≠ .forceSettle)
    (hs : Agrees m r s) : Agrees m r t := by
  obtain ⟨hr, mk, hmk, hstatus⟩ := hs
  refine ⟨h.receipt_kept hr, ?_⟩
  have hc := h.change m
  generalize a.opOn rt m = op at hc hclose hforce
  by_cases hended : Ended mk
  · obtain ⟨⟨mk', hmk', hfrozen⟩, -⟩ := hc.frozen hmk hended hclose
    refine ⟨mk', hmk', ?_⟩
    rw [hfrozen.status, hfrozen.outcome, hfrozen.closesAt, hfrozen.settlesAt]
    exact hstatus
  · have hopen : mk.status = statusOpen := by
      rcases hstatus with ho | ⟨hset, -⟩ | ⟨hvoid, -⟩
      · exact ho
      · exact absurd (.inl hset) hended
      · exact absurd (.inr hvoid) hended
    cases hc with
    | idle hm => exact ⟨mk, hm.trans hmk, .inl hopen⟩
    | create _ _ _ _ _ _ hnone =>
      rw [hmk] at hnone
      cases hnone
    | join o side amount mk₁ mk' p' l hj hm =>
      refine ⟨mk', hm, .inl ?_⟩
      rw [hj.joined.market]
      exact hj.isOpen
    | forceSettle => exact absurd rfl hforce
    | settleFromProof mk₁ outcome r' _ _ _ hr' _ ho _ hm =>
      rw [hr] at hr'
      cases hr'
      exact ⟨_, hm, .inr (.inl ⟨rfl, ho.symm⟩)⟩
    | void mk₁ h1 _ _ hlate hm => exact ⟨_, hm, .inr (.inr ⟨rfl, hlate⟩)⟩
    | claim o mk₁ p payout fee hcl =>
      cases market_inj hmk hcl.market
      exact absurd hcl.ended hended
    | claimBond mk₁ h1 hended₁ =>
      cases market_inj hmk h1
      exact absurd hended₁ hended
    | close => exact absurd rfl hclose
    | attest mk₁ n h1 hsettled =>
      cases market_inj hmk h1
      exact absurd (.inl hsettled) hended

/-- **Agreement of settlement and receipt.** An open market with a receipt ends with the outcome of
the receipt, or it is voided after the grace period. -/
theorem settles_as_receipt_or_void {rt : Runtime} {m : Pubkey} {s t : Chain} {as : List Action}
    {mk : Market} {r : Resolution} (hmk : s.market m = some mk) (hopen : mk.status = statusOpen)
    (hr : s.resolution m = some r) (h : Steps (Step rt) s as t)
    (halive : ∀ a ∈ as, a.opOn rt m ≠ .close) (hforce : ∀ a ∈ as, a.opOn rt m ≠ .forceSettle) :
    ∃ mk', t.market m = some mk' ∧
      (mk'.status = statusOpen ∨
        (mk'.status = statusSettled ∧ mk'.outcome = r.outcome) ∨
        (mk'.status = statusVoid ∧ mk'.closesAt.toInt + 3600 < mk'.settlesAt.toInt)) := by
  have hagrees := h.invariant (I := Agrees m r)
    (fun _ a _ ha hs => hs.agrees (halive a ha) (hforce a ha)) ⟨hr, mk, hmk, .inl hopen⟩
  exact hagrees.2

namespace Sample

def resolved : List Action := [setUp, create 1700001000 echo, resolve 0 [1]]

def Answered (t : Chain) : Prop :=
  Stands statusOpen outcomeVoid t ∧
    (t.resolution market).map (fun r => (r.outcome, r.validatorProgram)) = some (sideYes, echo)

instance : DecidablePred Answered := fun _ => inferInstanceAs (Decidable (_ ∧ _))

theorem Answered.receipt {t : Chain} (h : Answered t) :
    ∃ r, t.resolution Sample.market = some r ∧ r.outcome = sideYes ∧ r.validatorProgram = echo := by
  obtain ⟨r, hr, hpair⟩ := Option.map_eq_some_iff.mp h.2
  exact ⟨r, hr, (Prod.mk.inj hpair).1, (Prod.mk.inj hpair).2⟩

/-- A run that goes on after the oracle has answered. -/
theorem answered_of_runsTo (as : List Action) {P : Chain → Prop} [DecidablePred P]
    (h : Action.runsTo runtime resolved genesis
      (fun s => Answered s ∧ Action.runsTo runtime as s P = true) = true) :
    ∃ s t, Reachable runtime s ∧ Answered s ∧ Steps (Step runtime) s as t ∧ P t := by
  obtain ⟨s, hs, hanswered, hrest⟩ := steps_of_runsTo h
  obtain ⟨t, hsteps, hend⟩ := steps_of_runsTo hrest
  exact ⟨s, t, ⟨_, _, genesis_ok, hs⟩, hanswered, hsteps, hend⟩

theorem answered_join : ∃ s t, Reachable runtime s ∧ Answered s ∧
    Step runtime s (join sideYes 1000000) t ∧ Stands statusOpen outcomeVoid t := by
  obtain ⟨s, t, hs, hanswered, hsteps, hstands⟩ := answered_of_runsTo [join sideYes 1000000]
    (P := Stands statusOpen outcomeVoid) (by decide +kernel)
  exact ⟨s, t, hs, hanswered, Steps.single_iff.mp hsteps, hstands⟩

end Sample

theorem settles_as_receipt_or_void_sample :
    ∃ s t r, Sample.Answered s ∧ s.resolution Sample.market = some r ∧
      Steps (Step Sample.runtime) s [Sample.settle 0] t ∧
      ∃ mk', t.market Sample.market = some mk' ∧
        (mk'.status = statusOpen ∨
          (mk'.status = statusSettled ∧ mk'.outcome = r.outcome) ∨
          (mk'.status = statusVoid ∧ mk'.closesAt.toInt + 3600 < mk'.settlesAt.toInt)) := by
  obtain ⟨s, t, -, hanswered, hsteps, -⟩ := Sample.answered_of_runsTo [Sample.settle 0]
    (P := Sample.Stands statusSettled sideYes) (by decide +kernel)
  obtain ⟨mk, hmk, hopen, -⟩ := hanswered.1.market
  obtain ⟨r, hr, -, -⟩ := hanswered.receipt
  exact ⟨s, t, r, hanswered, hr, hsteps,
    settles_as_receipt_or_void hmk hopen hr hsteps (by decide +kernel) (by decide +kernel)⟩

/-- The oracle has answered YES, nobody settles within the grace period, and anyone voids. -/
theorem voided_despite_receipt :
    ∃ s t as, Reachable Sample.runtime s ∧ Sample.Answered s ∧
      Steps (Step Sample.runtime) s as t ∧
      (∀ a ∈ as, a.opOn Sample.runtime Sample.market ≠ .forceSettle ∧
        a.opOn Sample.runtime Sample.market ≠ .close) ∧
      Sample.Stands statusVoid outcomeVoid t := by
  obtain ⟨s, t, hs, hanswered, hsteps, hvoid⟩ := Sample.answered_of_runsTo
    [.tick 1700004601, Sample.void] (P := Sample.Stands statusVoid outcomeVoid) (by decide +kernel)
  exact ⟨s, t, _, hs, hanswered, hsteps, by decide +kernel, hvoid⟩

/-! ## Receipts and joins -/

def Shut (m : Pubkey) (s : Chain) : Prop := ∃ mk, s.market m = some mk ∧ mk.status ≠ statusOpen

theorem Change.shut {rt : Runtime} {m : Pubkey} {s t : Chain} {op : Op} (h : Change rt m s t op)
    (hs : Shut m s) (hclose : op ≠ .close) : Shut m t := by
  obtain ⟨mk, hmk, hstatus⟩ := hs
  obtain ⟨mk', hmk', hnext⟩ := h.next hmk hclose
  exact ⟨mk', hmk', hnext.shut hstatus⟩

def Op.ends (op : Op) : Prop := op = .forceSettle ∨ op = .settleFromProof ∨ op = .void

theorem Change.shut_of_ends {rt : Runtime} {m : Pubkey} {s t : Chain} {op : Op}
    (h : Change rt m s t op) (hop : op.ends) : Shut m t := by
  rcases hop with rfl | rfl | rfl
  · cases h with
    | forceSettle mk outcome _ _ _ hm =>
      exact ⟨_, hm, show statusSettled ≠ statusOpen by decide⟩
  · cases h with
    | settleFromProof mk outcome r _ _ _ _ _ _ _ hm =>
      exact ⟨_, hm, show statusSettled ≠ statusOpen by decide⟩
  · cases h with
    | void mk _ _ _ _ hm => exact ⟨_, hm, show statusVoid ≠ statusOpen by decide⟩

theorem shut_of_run {rt : Runtime} {m : Pubkey} {s t : Chain} {as : List Action}
    (h : Steps (Step rt) s as t) (halive : ∀ a ∈ as, a.opOn rt m ≠ .close) (hs : Shut m s) :
    Shut m t :=
  h.invariant (I := Shut m) (fun _ a _ ha hstep hi => (hstep.change m).shut hi (halive a ha)) hs

theorem no_join_of_shut {rt : Runtime} {m : Pubkey} {s t : Chain} {as : List Action}
    (h : Steps (Step rt) s as t) (halive : ∀ a ∈ as, a.opOn rt m ≠ .close) (hs : Shut m s) :
    ∀ a ∈ as, a.opOn rt m ≠ .join := by
  intro a ha hop
  obtain ⟨pre, post, u, v, rfl, hpre, hstep, -⟩ := h.exists_of_mem ha
  have halive' : ∀ b ∈ pre, b.opOn rt m ≠ .close := fun b hb => halive b (List.mem_append_left _ hb)
  obtain ⟨mk, hmk, hstatus⟩ := shut_of_run hpre halive' hs
  have hc := hstep.change m
  rw [hop] at hc
  cases hc with
  | join o side amount mk₁ mk' p' l hj =>
    cases market_inj hmk hj.market
    exact hstatus hj.isOpen

/-- **Joins around a receipt.** A join that succeeds after the receipt finds the market open and
its close ahead, and no settlement or voiding in between; a transaction that ends by resolving and
settling lets no join in. -/
theorem join_after_receipt (rt : Runtime) (m : Pubkey) (s : Chain) :
    (∀ r mk, s.resolution m = some r → s.market m = some mk → ∀ as t a u,
      Steps (Step rt) s as t → (∀ b ∈ as, b.opOn rt m ≠ .close) → Step rt t a u →
      a.opOn rt m = .join →
      t.resolution m = some r ∧ t.now < mk.closesAt ∧
        (∃ mk', t.market m = some mk' ∧ mk'.status = statusOpen) ∧
        ∀ b ∈ as, ¬ (b.opOn rt m).ends) ∧
    ∀ ixs resolver statement root outcome data remaining keeper address outcome' t,
      execTx rt (ixs ++ [.resolveMarket resolver (.market m) statement root outcome data remaining,
        .settleFromProof keeper m address outcome']) s = .ok t →
      (∃ r, t.resolution m = some r) ∧
        ∀ as u, Steps (Step rt) t as u → (∀ b ∈ as, b.opOn rt m ≠ .close) →
          ∀ b ∈ as, b.opOn rt m ≠ .join := by
  constructor
  · intro r mk hr hmk as t a u has halive hstep hop
    obtain ⟨mk', hmk', hterms⟩ := terms_of_run has hmk halive
    have hc := hstep.change m
    rw [hop] at hc
    cases hc with
    | join o side amount mk₁ mk₂ p' l hj =>
      cases market_inj hmk' hj.market
      refine ⟨receipt_kept has hr, hterms.closesAt ▸ hj.inTime, ⟨_, hmk', hj.isOpen⟩, ?_⟩
      intro b hb hends
      obtain ⟨pre, post, w, x, rfl, -, hw, hx⟩ := has.exists_of_mem hb
      obtain ⟨mk₃, h3, hshut⟩ := shut_of_run hx
        (fun c hc => halive c (List.mem_append_right _ (List.mem_cons_of_mem _ hc)))
        ((hw.change m).shut_of_ends hends)
      cases market_inj hmk' h3
      exact hshut hj.isOpen
  · intro ixs resolver statement root outcome data remaining keeper address outcome' t ht
    rw [← List.singleton_append, ← List.append_assoc] at ht
    obtain ⟨calls, n, w, -, hlast⟩ := execTx_last ht
    have hop : ∀ ctx, (Action.call ctx (.settleFromProof keeper m address outcome')).opOn rt m =
        .settleFromProof := fun _ => opOn_of_target rfl
    obtain ⟨r, hr⟩ := receipt_of_settle hlast (hop _)
    have hshut := (hlast.change m).shut_of_ends (.inr (.inl (hop _)))
    exact ⟨⟨r, hlast.receipt_kept hr⟩, fun as u has halive => no_join_of_shut has halive hshut⟩

theorem join_after_receipt_sample :
    ∃ s t, Reachable Sample.runtime s ∧ Sample.Answered s ∧
      Step Sample.runtime s (Sample.join sideYes 1000000) t ∧
      ∃ mk, s.market Sample.market = some mk ∧ s.now < mk.closesAt := by
  obtain ⟨s, t, hs, hanswered, hjoin, -⟩ := Sample.answered_join
  obtain ⟨mk, hmk, -, -⟩ := hanswered.1.market
  obtain ⟨r, hr, -, -⟩ := hanswered.receipt
  have hwindow := (join_after_receipt Sample.runtime Sample.market s).1 r mk hr hmk [] s _ t
    (.nil s) (List.forall_mem_nil _) hjoin rfl
  exact ⟨s, t, hs, hanswered, hjoin, mk, hmk, hwindow.2.1⟩

/-- The oracle has answered YES, and a bet on YES is still taken. -/
theorem joined_despite_receipt :
    ∃ s t, Reachable Sample.runtime s ∧ Sample.Answered s ∧
      Step Sample.runtime s (Sample.join sideYes 1000000) t := by
  obtain ⟨s, t, hs, hanswered, hjoin, -⟩ := Sample.answered_join
  exact ⟨s, t, hs, hanswered, hjoin⟩

end Stoppage

import Stoppage.Chain.State

/-! # What the operations of the runtime do

One specification for each operation of `Chain`, in the form that handlers compose: an operation
that moves lamports returns the chain it was given with another balance sheet. `Paid` is what any
number of payments out of wallets do to a balance sheet, and `Aside` what an instruction does that
leaves all markets, positions, receipts and pinned keys alone.
-/

namespace Stoppage
open Fallible BalanceSheet
set_option autoImplicit false

namespace Chain

/-! ## Moving lamports -/

theorem systemTransfer_ok {s t : Chain} {source : Pubkey} {target : Address} {x : UInt64}
    (h : s.systemTransfer source target x = .ok t) :
    ∃ l, (s.external source).IsWallet ∧
      Transferred s.lamports (.external source) target x l ∧ t = { s with lamports := l } := by
  simp only [systemTransfer, bind_eq_ok, require_eq_ok, pure_eq_ok] at h
  obtain ⟨_, hw, l, hl, rfl⟩ := h
  exact ⟨l, hw, transfer_ok hl, rfl⟩

/-- A wallet pays what it has; the supply leaves room for it at the target. -/
theorem exists_systemTransfer {s : Chain} {source : Pubkey} (target : Address) {x : UInt64}
    (hwallet : (s.external source).IsWallet)
    (hfunds : x.toNat ≤ (s.lamports (.external source)).toNat)
    (hsupply : total s.lamports < 2 ^ 64) : ∃ t, s.systemTransfer source target x = .ok t := by
  obtain ⟨l, hl⟩ := exists_debit (e := ProgramError.insufficientFunds) hfunds
  have hdebited := (debit_ok hl).total
  have hle := le_total l target
  obtain ⟨l', hl'⟩ := exists_credit (e := ProgramError.lamportOverflow) (l := l) (a := target)
    (x := x) (by omega)
  refine ⟨{ s with lamports := l' }, ?_⟩
  rw [systemTransfer, require_of hwallet, ok_bind, BalanceSheet.transfer, hl, ok_bind, hl']
  rfl

theorem subLamports_ok {s t : Chain} {site : Site} {a : Address} {x : UInt64}
    (h : s.subLamports site a x = .ok t) :
    ∃ l, Debited s.lamports a x l ∧ t = { s with lamports := l } := by
  simp only [subLamports, bind_eq_ok, pure_eq_ok] at h
  obtain ⟨l, hl, rfl⟩ := h
  exact ⟨l, debit_ok hl, rfl⟩

theorem addLamports_ok {s t : Chain} {site : Site} {a : Address} {x : UInt64}
    (h : s.addLamports site a x = .ok t) :
    ∃ l, Credited s.lamports a x l ∧ t = { s with lamports := l } := by
  simp only [addLamports, bind_eq_ok, pure_eq_ok] at h
  obtain ⟨l, hl, rfl⟩ := h
  exact ⟨l, credit_ok hl, rfl⟩

theorem exists_subLamports (s : Chain) (site : Site) {a : Address} {x : UInt64}
    (h : x.toNat ≤ (s.lamports a).toNat) :
    ∃ l, s.subLamports site a x = .ok { s with lamports := l } ∧ Debited s.lamports a x l := by
  obtain ⟨l, hl⟩ := exists_debit (e := (.overflow site : ProgramError)) h
  refine ⟨l, ?_, debit_ok hl⟩
  rw [subLamports, hl, ok_bind]
  rfl

theorem exists_addLamports (s : Chain) (site : Site) (a : Address) {x : UInt64}
    (h : total s.lamports + x.toNat < 2 ^ 64) :
    ∃ l, s.addLamports site a x = .ok { s with lamports := l } ∧ Credited s.lamports a x l := by
  have hle := le_total s.lamports a
  obtain ⟨l, hl⟩ := exists_credit (e := (.overflow site : ProgramError)) (l := s.lamports) (a := a)
    (x := x) (by omega)
  refine ⟨l, ?_, credit_ok hl⟩
  rw [addLamports, hl, ok_bind]
  rfl

theorem sweep_ok {s t : Chain} {site : Site} {a : Address} {target : Pubkey}
    (h : s.sweep site a target = .ok t) :
    ∃ l, Credited s.lamports (.external target) (s.lamports a) l ∧
      t = { s with lamports := Function.update l a 0 } := by
  simp only [sweep, bind_eq_ok, pure_eq_ok] at h
  obtain ⟨u, hu, rfl⟩ := h
  obtain ⟨l, hl, rfl⟩ := addLamports_ok hu
  exact ⟨l, hl, rfl⟩

/-! ## Creating accounts -/

theorem initAccount_ok {s t : Chain} {rt : Runtime} {payer : Pubkey} {a : Address} {space : ℕ}
    (h : s.initAccount rt payer a space = .ok t) :
    ∃ l, s.owner a = systemProgramId ∧
      Transferred s.lamports (.external payer) a (s.rentDue rt a space) l ∧
      t = { s with lamports := l } := by
  simp only [initAccount, bind_eq_ok, require_eq_ok] at h
  obtain ⟨_, ho, ht⟩ := h
  obtain ⟨l, -, hl, rfl⟩ := systemTransfer_ok ht
  exact ⟨l, ho, hl, rfl⟩

theorem minimumBalance_le_add_rentDue (s : Chain) (rt : Runtime) (a : Address) (space : ℕ) :
    (rt.minimumBalance space).toNat ≤ (s.lamports a).toNat + (s.rentDue rt a space).toNat := by
  unfold rentDue
  split
  · omega
  · have hmax : (rt.minimumBalance space).toNat ≤ (max (rt.minimumBalance space) 1).toNat := by
      show _ ≤ (if rt.minimumBalance space ≤ 1 then 1 else rt.minimumBalance space).toNat
      split
      · rename_i h
        exact UInt64.le_iff_toNat_le.mp h
      · exact le_rfl
    dsimp only
    split
    · rename_i h
      rw [UInt64.toNat_sub_of_le _ _ h]
      omega
    · rename_i h
      rw [UInt64.le_iff_toNat_le] at h
      omega

theorem rentDue_le (s : Chain) (rt : Runtime) (a : Address) (space : ℕ) :
    (s.rentDue rt a space).toNat ≤ (rt.minimumBalance space).toNat := by
  unfold rentDue
  split
  · exact le_rfl
  · rename_i hsome
    have hpos : 0 < (s.lamports a).toNat :=
      Nat.pos_of_ne_zero fun h => hsome (UInt64.toNat_inj.mp h)
    dsimp only
    split
    · rename_i h
      rw [UInt64.toNat_sub_of_le _ _ h]
      show (if rt.minimumBalance space ≤ 1 then 1 else rt.minimumBalance space).toNat - _ ≤ _
      split
      · show 1 - _ ≤ _
        omega
      · omega
    · exact Nat.zero_le _

theorem minimumBalance_le_of_init {s : Chain} {rt : Runtime} {payer : Pubkey} {a : Address}
    {space : ℕ} {l : Address → UInt64} (ha : a ≠ .external payer)
    (h : Transferred s.lamports (.external payer) a (s.rentDue rt a space) l) :
    (rt.minimumBalance space).toNat ≤ (l a).toNat := by
  have hp := h.payee ha
  have hr := minimumBalance_le_add_rentDue s rt a space
  omega

/-- A position that exists is used as it is: as if nothing had been paid for it. -/
theorem initPosition_ok {s t : Chain} {rt : Runtime} {payer m o : Pubkey} {p : Position}
    (h : s.initPosition rt payer m o = .ok (p, t)) :
    ∃ x l, p = (s.position (m, o)).getD Position.empty ∧
      Transferred s.lamports (.external payer) (.position m o) x l ∧
      t = { s with lamports := l } := by
  unfold initPosition at h
  split at h
  · rename_i q hq
    rw [pure_eq_ok, Prod.mk.injEq] at h
    obtain ⟨rfl, rfl⟩ := h
    have hzero : Transferred s.lamports (.external payer) (.position m o) 0 s.lamports :=
      ⟨s.lamports, ⟨rfl, fun _ _ => rfl⟩, rfl, fun _ _ => rfl⟩
    exact ⟨0, s.lamports, by rw [hq]; rfl, hzero, rfl⟩
  · rename_i hq
    simp only [bind_eq_ok, pure_eq_ok, Prod.mk.injEq] at h
    obtain ⟨u, hu, rfl, rfl⟩ := h
    obtain ⟨l, -, hl, rfl⟩ := initAccount_ok hu
    exact ⟨_, l, by rw [hq]; rfl, hl, rfl⟩

end Chain

/-! ## No panics

The transfers of the system program report errors; only checked arithmetic in a handler panics.
-/

namespace Chain

theorem systemTransfer_no_overflow (s : Chain) (source : Pubkey) (target : Address) (x : UInt64)
    (site : Site) : s.systemTransfer source target x ≠ .error (.overflow site) := by
  intro h
  obtain ⟨-, h⟩ := of_require_bind_error h ProgramError.noConfusion
  rcases bind_eq_error.mp h with ht | ⟨_, -, hpure⟩
  · rcases bind_eq_error.mp ht with hd | ⟨_, -, hc⟩
    · exact ProgramError.noConfusion (debit_eq_error.mp hd).2
    · exact ProgramError.noConfusion (credit_eq_error.mp hc).2
  · cases hpure

theorem initPosition_no_overflow (s : Chain) (rt : Runtime) (payer m o : Pubkey) (site : Site) :
    s.initPosition rt payer m o ≠ .error (.overflow site) := by
  intro h
  unfold initPosition at h
  split at h
  · cases h
  · rcases bind_eq_error.mp h with hinit | ⟨_, -, hpure⟩
    · obtain ⟨-, ht⟩ := of_require_bind_error hinit ProgramError.noConfusion
      exact systemTransfer_no_overflow _ _ _ _ _ ht
    · cases hpure

end Chain

/-! ## Payments out of wallets -/

structure Paid (l l' : Address → UInt64) : Prop where
  market : ∀ m, (l (.market m)).toNat ≤ (l' (.market m)).toNat
  total : total l' = total l

namespace Paid

theorem refl (l : Address → UInt64) : Paid l l := ⟨fun _ => le_rfl, rfl⟩

theorem trans {l₁ l₂ l₃ : Address → UInt64} (h : Paid l₁ l₂) (h' : Paid l₂ l₃) : Paid l₁ l₃ :=
  ⟨fun m => (h.market m).trans (h'.market m), h'.total.trans h.total⟩

theorem of_transfer {l l' : Address → UInt64} {source : Pubkey} {target : Address} {x : UInt64}
    (h : Transferred l (.external source) target x l') : Paid l l' :=
  ⟨fun _ => h.le Address.noConfusion, h.total⟩

theorem of_sweep {l l' : Address → UInt64} {a : Address} {target : Pubkey}
    (ha : ∀ m, a ≠ .market m) (hne : a ≠ .external target)
    (h : Credited l (.external target) (l a) l') : Paid l (Function.update l' a 0) := by
  refine ⟨fun m => ?_, ?_⟩
  · rw [Function.update_of_ne (ha m).symm, h.other _ Address.noConfusion]
  · have hd : Debited l' a (l a) (Function.update l' a 0) := by
      refine ⟨?_, fun k hk => Function.update_of_ne hk _ _⟩
      rw [Function.update_self, h.other a hne]
      exact Nat.zero_add _
    have h1 := h.total
    have h2 := hd.total
    omega

end Paid

/-! ## Instructions aside from the markets -/

/-- The fee of the protocol stays within the cap that `initialize_protocol` checks. -/
def Chain.FeeCapped (s : Chain) : Prop := ∀ c, s.protocolConfig = some c → c.feeBps ≤ 500

structure Aside (s t : Chain) : Prop where
  now : t.now = s.now
  market : t.market = s.market
  position : t.position = s.position
  resolution : t.resolution = s.resolution
  config : t.config = s.config
  external : t.external = s.external
  paid : Paid s.lamports t.lamports
  fee : s.FeeCapped → t.FeeCapped

namespace Aside

theorem refl (s : Chain) : Aside s s := ⟨rfl, rfl, rfl, rfl, rfl, rfl, .refl _, id⟩

theorem of_paid {s : Chain} {l : Address → UInt64} (h : Paid s.lamports l) :
    Aside s { s with lamports := l } := ⟨rfl, rfl, rfl, rfl, rfl, rfl, h, id⟩

theorem of_transfer {s t : Chain} {source : Pubkey} {target : Address} {x : UInt64}
    (h : s.systemTransfer source target x = .ok t) : Aside s t := by
  obtain ⟨l, -, hl, rfl⟩ := Chain.systemTransfer_ok h
  exact of_paid (.of_transfer hl)

theorem of_init {s t : Chain} {rt : Runtime} {payer : Pubkey} {a : Address} {space : ℕ}
    (h : s.initAccount rt payer a space = .ok t) : Aside s t := by
  obtain ⟨l, -, hl, rfl⟩ := Chain.initAccount_ok h
  exact of_paid (.of_transfer hl)

theorem trans {s t u : Chain} (h : Aside s t) (h' : Aside t u) : Aside s u :=
  ⟨h'.now.trans h.now, h'.market.trans h.market, h'.position.trans h.position,
    h'.resolution.trans h.resolution, h'.config.trans h.config, h'.external.trans h.external,
    h.paid.trans h'.paid, fun hf => h'.fee (h.fee hf)⟩

theorem rest {s t : Chain} (h : Aside s t) (pc : Option ProtocolConfig)
    (hpc : ∀ c, pc = some c → t.protocolConfig = some c ∨ c.feeBps ≤ 500)
    (aa : Option AgentAuthority) (sg : Pubkey × Pubkey → Option SessionGrant)
    (pr : Pubkey → Option PricingReceipt) (es : List Event) :
    Aside s { t with
      protocolConfig := pc, agentAuthority := aa, sessionGrant := sg, pricingReceipt := pr,
      events := es } := by
  refine ⟨h.now, h.market, h.position, h.resolution, h.config, h.external, h.paid, ?_⟩
  intro hf c hc
  rcases hpc c hc with h1 | h1
  · exact h.fee hf c h1
  · exact h1

theorem keep {s t : Chain} (h : Aside s t) (aa : Option AgentAuthority)
    (sg : Pubkey × Pubkey → Option SessionGrant) (pr : Pubkey → Option PricingReceipt)
    (es : List Event) :
    Aside s { t with
      agentAuthority := aa, sessionGrant := sg, pricingReceipt := pr, events := es } :=
  h.rest t.protocolConfig (fun _ => Or.inl) aa sg pr es

/-- A receipt that no market has. -/
theorem stray {s t : Chain} (h : Aside s t) (sr : Pubkey → Option Resolution) :
    Aside s { t with strayResolution := sr } :=
  ⟨h.now, h.market, h.position, h.resolution, h.config, h.external, h.paid, h.fee⟩

end Aside

end Stoppage

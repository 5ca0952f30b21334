import Stoppage.Sdk.ParseMarket
import Stoppage.Instance.Pool

/-! # What a parsed market says about the account

The account holds 64-bit words, the result doubles and dates. `Storable` is what the program can
leave in an account, and a field of the result determines the stored value when no other storable
account shows the same there.
-/

namespace Stoppage
open MarketProgram
set_option autoImplicit false

/-! ## Stored markets -/

/-- An open market has no time of settlement; an ended one has any. -/
def Storable (mk : Market) : Prop := mk.status = statusOpen ∧ mk.settlesAt = 0 ∨ Ended mk

theorem Change.storable {rt : Runtime} {m : Pubkey} {s t : Chain} {op : Op}
    (hc : Change rt m s t op) (h : ∀ mk, s.market m = some mk → Storable mk) :
    ∀ mk, t.market m = some mk → Storable mk := by
  intro mk' hmk'
  have hnew : ∀ {mk}, t.market m = some mk → Storable mk → Storable mk' := by
    intro mk hmk hv
    rw [hmk] at hmk'
    cases hmk'
    exact hv
  cases hc with
  | idle hmarket => exact h mk' (hmarket ▸ hmk')
  | create _ _ _ _ _ _ _ _ _ hmarket => exact hnew hmarket (.inl ⟨rfl, rfl⟩)
  | join o side amount mk mk₁ p' l hj hmarket =>
    have hold := h mk hj.market
    refine hnew hmarket ?_
    rw [hj.joined.market]
    exact hold
  | forceSettle _ _ _ _ _ hmarket => exact hnew hmarket (.inr (.inl rfl))
  | settleFromProof _ _ _ _ _ _ _ _ _ _ hmarket => exact hnew hmarket (.inr (.inl rfl))
  | void _ _ _ _ _ hmarket => exact hnew hmarket (.inr (.inr rfl))
  | claim o mk p payout fee hcl _ _ hmarket => exact hnew hmarket (h mk hcl.market)
  | claimBond mk hmk _ _ _ hmarket => exact hnew hmarket (h mk hmk)
  | close _ _ _ _ hmarket =>
    rw [hmarket] at hmk'
    cases hmk'
  | attest mk n hmk _ hmarket => exact hnew hmarket (h mk hmk)

theorem Reachable.storable {rt : Runtime} {s : Chain} (hs : Reachable rt s) {m : Pubkey}
    {mk : Market} (hmk : s.market m = some mk) : Storable mk := by
  have hinv := hs.invariant (I := fun s => ∀ mk, s.market m = some mk → Storable mk)
    (fun s hg mk hmk => by
      rw [hg.market] at hmk
      cases hmk)
    (fun _ _ _ hstep ih => (hstep.change m).storable ih)
  exact hinv mk hmk

namespace Escrow
open LittleEndian Fallible Sdk

/-! ## Single fields -/

/-- The 64-bit words that their double determines. -/
def ExactNumber (x : UInt64) : Prop :=
  x.toNat < 2 ^ 53 ∨ 2 ^ 53 < x.toNat ∧ x.toNat < 2 ^ 54 ∧ x.toNat % 4 = 2

instance (x : UInt64) : Decidable (ExactNumber x) := inferInstanceAs (Decidable (_ ∨ _))

theorem exactNumber_iff {x : UInt64} :
    ExactNumber x ↔ ∀ y : UInt64, numberOfU64 y = numberOfU64 x → y = x := by
  rw [ExactNumber, ← Double.determines_iff x.toNat_lt]
  constructor
  · intro h y hy
    exact UInt64.toNat_inj.mp (h y.toNat y.toNat_lt (Nat.cast_injective hy))
  · intro h m hm hsame
    have htoNat := toNat_ofNat_of_lt hm
    have hnumber : numberOfU64 (UInt64.ofNat m) = numberOfU64 x := by
      rw [numberOfU64, numberOfU64, htoNat, hsame]
    rw [← h _ hnumber, htoNat]

/-- No other storable account shows the same in this field of the result. -/
def Determined {α β : Type} (marketAddress : Pubkey) (mk : Stoppage.Market) (view : Market)
    (shown : Market → α) (stored : Stoppage.Market → β) : Prop :=
  ∀ mk' view', Storable mk' → parseMarket mk'.data marketAddress = .ok view' →
    shown view' = shown view → stored mk' = stored mk

/-- Every number and every time of the result determines the stored value. -/
structure Exact (marketAddress : Pubkey) (mk : Stoppage.Market) (view : Market) : Prop where
  param : Determined marketAddress mk view (·.predicate.number) (·.paramU64)
  bond : Determined marketAddress mk view (·.bondLamports) (·.bondLamports)
  yesPool : Determined marketAddress mk view (·.yesPool) (·.yesPool)
  noPool : Determined marketAddress mk view (·.noPool) (·.noPool)
  closesAt : Determined marketAddress mk view (·.closesAt) (·.closesAt)
  settlesAt : Determined marketAddress mk view (fun v => (v.status, v.settlesAt)) (·.settlesAt)
  feeBps : Determined marketAddress mk view (·.feeBps) (·.feeBps)
  verifications : Determined marketAddress mk view (·.verifications) (·.verifications)

/-- Dates a `Date` can hold, a settlement after 1970, and words that are exact as doubles. -/
structure Readable (mk : Stoppage.Market) : Prop where
  closesAt : -maxSeconds ≤ mk.closesAt.toInt ∧ mk.closesAt.toInt ≤ maxSeconds
  settlesAt : Ended mk → 0 < mk.settlesAt.toInt ∧ mk.settlesAt.toInt ≤ maxSeconds
  param : ExactNumber mk.paramU64
  bond : ExactNumber mk.bondLamports
  yesPool : ExactNumber mk.yesPool
  noPool : ExactNumber mk.noPool

section Fields
variable {marketAddress : Pubkey} {mk : Stoppage.Market} {view : Market}

/-- A field that shows a word and can be changed on its own is determined when the word is exact. -/
theorem determined_word_iff {shown : Market → ℚ} {stored : Stoppage.Market → UInt64}
    (change : UInt64 → Stoppage.Market) (hparse : parseMarket mk.data marketAddress = .ok view)
    (hshown : ∀ mk' view', parseMarket mk'.data marketAddress = .ok view' →
      shown view' = numberOfU64 (stored mk'))
    (hchange : ∀ y, stored (change y) = y) (hstorable : ∀ y, Storable (change y))
    (hchanged : ∀ y, ∃ view', parseMarket (change y).data marketAddress = .ok view') :
    Determined marketAddress mk view shown stored ↔ ExactNumber (stored mk) := by
  rw [exactNumber_iff]
  constructor
  · intro h y hy
    obtain ⟨view', hview'⟩ := hchanged y
    have hsame : shown view' = shown view := by
      rw [hshown _ _ hview', hshown _ _ hparse, hchange, hy]
    exact (hchange y).symm.trans (h _ view' (hstorable y) hview' hsame)
  · intro h mk' view' _ hview' hsame
    rw [hshown _ _ hview', hshown _ _ hparse] at hsame
    exact h _ hsame

theorem determined_words (hst : Storable mk) (hparse : parseMarket mk.data marketAddress = .ok view) :
    (Determined marketAddress mk view (·.predicate.number) (·.paramU64) ↔
      ExactNumber mk.paramU64) ∧
    (Determined marketAddress mk view (·.bondLamports) (·.bondLamports) ↔
      ExactNumber mk.bondLamports) ∧
    (Determined marketAddress mk view (·.yesPool) (·.yesPool) ↔ ExactNumber mk.yesPool) ∧
    (Determined marketAddress mk view (·.noPool) (·.noPool) ↔ ExactNumber mk.noPool) := by
  obtain ⟨hdates, -⟩ := parseMarket_ok_iff.mp hparse
  refine ⟨?_, ?_, ?_, ?_⟩
  · refine determined_word_iff (fun y => { mk with paramU64 := y }) hparse ?_
      (fun _ => rfl) (fun _ => hst) (fun _ => ⟨_, parseMarket_ok_iff.mpr ⟨hdates, rfl⟩⟩)
    intro mk' view' h
    rw [(parseMarket_ok_iff.mp h).2, viewOf, number_predicateOf]
  · refine determined_word_iff (fun y => { mk with bondLamports := y }) hparse ?_
      (fun _ => rfl) (fun _ => hst) (fun _ => ⟨_, parseMarket_ok_iff.mpr ⟨hdates, rfl⟩⟩)
    intro mk' view' h
    rw [(parseMarket_ok_iff.mp h).2, viewOf]
  · refine determined_word_iff (fun y => { mk with yesPool := y }) hparse ?_
      (fun _ => rfl) (fun _ => hst) (fun _ => ⟨_, parseMarket_ok_iff.mpr ⟨hdates, rfl⟩⟩)
    intro mk' view' h
    rw [(parseMarket_ok_iff.mp h).2, viewOf]
  · refine determined_word_iff (fun y => { mk with noPool := y }) hparse ?_
      (fun _ => rfl) (fun _ => hst) (fun _ => ⟨_, parseMarket_ok_iff.mpr ⟨hdates, rfl⟩⟩)
    intro mk' view' h
    rw [(parseMarket_ok_iff.mp h).2, viewOf]

theorem determined_closesAt (hparse : parseMarket mk.data marketAddress = .ok view) :
    Determined marketAddress mk view (·.closesAt) (·.closesAt) := by
  intro mk' view' _ hview' hsame
  obtain ⟨-, rfl⟩ := parseMarket_ok_iff.mp hparse
  obtain ⟨-, rfl⟩ := parseMarket_ok_iff.mp hview'
  have htime : mk'.closesAt.toInt * 1000 = mk.closesAt.toInt * 1000 := hsame
  show mk'.closesAt = mk.closesAt
  exact Int64.toInt_inj.mp (by omega)

theorem determined_feeBps (hparse : parseMarket mk.data marketAddress = .ok view) :
    Determined marketAddress mk view (·.feeBps) (·.feeBps) := by
  intro mk' view' _ hview' hsame
  obtain ⟨-, rfl⟩ := parseMarket_ok_iff.mp hparse
  obtain ⟨-, rfl⟩ := parseMarket_ok_iff.mp hview'
  exact UInt16.toNat_inj.mp (Nat.cast_injective hsame)

theorem determined_verifications (hparse : parseMarket mk.data marketAddress = .ok view) :
    Determined marketAddress mk view (·.verifications) (·.verifications) := by
  intro mk' view' _ hview' hsame
  obtain ⟨-, rfl⟩ := parseMarket_ok_iff.mp hparse
  obtain ⟨-, rfl⟩ := parseMarket_ok_iff.mp hview'
  exact UInt32.toNat_inj.mp (Nat.cast_injective hsame)

theorem statusFromNum_ended (h : Ended mk) : statusFromNum mk.status ≠ .open := by
  rcases h with hset | hvoid
  · rw [hset]
    decide
  · rw [hvoid]
    decide

/-- The time of settlement is read back when it is there exactly for the markets that have ended. -/
theorem determined_settlesAt_iff (hst : Storable mk)
    (hparse : parseMarket mk.data marketAddress = .ok view) :
    Determined marketAddress mk view (fun v => (v.status, v.settlesAt)) (·.settlesAt) ↔
      (Ended mk → 0 < mk.settlesAt.toInt) := by
  obtain ⟨hdates, rfl⟩ := parseMarket_ok_iff.mp hparse
  constructor
  · intro h hended
    by_contra hneg
    -- Another account whose settlement is not after 1970 shows `null` as well.
    have hother : ∀ y : Int64, y.toInt ≤ 0 → y = mk.settlesAt := by
      intro y hy
      have hmax : maxSeconds = 8640000000000 := rfl
      refine h { mk with settlesAt := y } _ (.inr hended)
        (parseMarket_ok_iff.mpr ⟨⟨hdates.1, hdates.2.1, hy.trans (by omega)⟩, rfl⟩) ?_
      show (statusFromNum mk.status, if 0 < y.toInt then _ else none) =
        (statusFromNum mk.status, if 0 < mk.settlesAt.toInt then _ else none)
      rw [if_neg (by omega), if_neg hneg]
    have hzero := hother 0 (by decide)
    have hminus := hother (-1) (by decide)
    exact absurd (hzero.trans hminus.symm) (by decide)
  · intro h mk' view' hst' hview' hsame
    obtain ⟨-, rfl⟩ := parseMarket_ok_iff.mp hview'
    have hstatus : statusFromNum mk'.status = statusFromNum mk.status := (Prod.mk.inj hsame).1
    have htime : (if 0 < mk'.settlesAt.toInt then some (mk'.settlesAt.toInt * 1000) else none) =
        if 0 < mk.settlesAt.toInt then some (mk.settlesAt.toInt * 1000) else none :=
      (Prod.mk.inj hsame).2
    rcases hst with ⟨hopen, hzero⟩ | hended
    · rcases hst' with ⟨-, hzero'⟩ | hended'
      · exact hzero'.trans hzero.symm
      · rw [hopen] at hstatus
        exact absurd hstatus (statusFromNum_ended hended')
    · rw [if_pos (h hended)] at htime
      split at htime
      · have hseconds := Option.some.inj htime
        show mk'.settlesAt = mk.settlesAt
        exact Int64.toInt_inj.mp (by omega)
      · cases htime

end Fields

/-- **What can be read of a stored market.** Parsing returns and determines every number and time
exactly for the readable accounts. -/
theorem parse_exact_iff {rt : Runtime} {s : Chain} {m : Pubkey} {mk : Stoppage.Market}
    (hs : Reachable rt s) (hmk : s.market m = some mk) :
    (∃ view, parseMarket mk.data m = .ok view ∧ Exact m mk view) ↔ Readable mk := by
  have hst := hs.storable hmk
  constructor
  · rintro ⟨view, hparse, hexact⟩
    obtain ⟨⟨hlow, hhigh, hsettles⟩, -⟩ := parseMarket_ok_iff.mp hparse
    obtain ⟨hparam, hbond, hyes, hno⟩ := determined_words hst hparse
    have hpos := (determined_settlesAt_iff hst hparse).mp hexact.settlesAt
    exact ⟨⟨hlow, hhigh⟩, fun hended => ⟨hpos hended, hsettles⟩, hparam.mp hexact.param,
      hbond.mp hexact.bond, hyes.mp hexact.yesPool, hno.mp hexact.noPool⟩
  · intro h
    have hsettles : mk.settlesAt.toInt ≤ maxSeconds := by
      rcases hst with ⟨-, hzero⟩ | hended
      · rw [hzero]
        decide
      · exact (h.settlesAt hended).2
    have hparse : parseMarket mk.data m = .ok _ :=
      parseMarket_ok_iff.mpr ⟨⟨h.closesAt.1, h.closesAt.2, hsettles⟩, rfl⟩
    obtain ⟨hparam, hbond, hyes, hno⟩ := determined_words hst hparse
    exact ⟨_, hparse, hparam.mpr h.param, hbond.mpr h.bond, hyes.mpr h.yesPool, hno.mpr h.noPool,
      determined_closesAt hparse,
      (determined_settlesAt_iff hst hparse).mpr fun hended => (h.settlesAt hended).1,
      determined_feeBps hparse, determined_verifications hparse⟩

namespace Sample
open Stoppage.Sample

/-- The market of the small world, as it is stored when it closes at the given time. -/
def stored (closesAt : Int64) : Stoppage.Market :=
  newMarket runtime alice seeds closesAt echo 200

theorem exists_stored (closesAt : Int64) (h : Action.runsTo runtime
    [setUp, create closesAt echo] genesis (fun t => t.market market = some (stored closesAt)) = true) :
    ∃ s, Reachable runtime s ∧ s.market market = some (stored closesAt) := by
  obtain ⟨s, hsteps, hmk⟩ := steps_of_runsTo h
  exact ⟨s, ⟨_, _, genesis_ok, hsteps⟩, hmk⟩

end Sample

theorem parse_exact_iff_sample : ∃ view,
    parseMarket (Sample.stored 1700001000).data Stoppage.Sample.market = .ok view ∧
    Exact Stoppage.Sample.market (Sample.stored 1700001000) view := by
  obtain ⟨s, hs, hmk⟩ := Sample.exists_stored 1700001000 (by decide +kernel)
  refine (parse_exact_iff hs hmk).mpr ⟨by decide, fun hended => ?_, by decide, by decide, by decide,
    by decide⟩
  exact absurd hended (by decide)

/-- A market that closes after the last date of the language, which anyone may create. -/
theorem late_market_unreadable : ¬ ∀ (rt : Runtime) (s : Chain) (m : Pubkey)
    (mk : Stoppage.Market), Reachable rt s → s.market m = some mk →
    ∃ view, parseMarket mk.data m = .ok view ∧ Exact m mk view := by
  intro hall
  obtain ⟨s, hs, hmk⟩ := Sample.exists_stored 8640000000001 (by decide +kernel)
  obtain ⟨view, hparse, -⟩ := hall _ s _ _ hs hmk
  obtain ⟨⟨-, hlate, -⟩, -⟩ := parseMarket_ok_iff.mp hparse
  exact absurd hlate (by decide)

end Escrow

end Stoppage

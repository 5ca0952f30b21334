import Stoppage.Lib.Clamp
import Stoppage.Quant.Model

/-! # `packages/quant/src/marketMaker.ts`: bid and ask over exact rationals

A quote is a clamped interval around a centre. The centre is the skewed one, unless the skew pushes
the whole interval onto a rail: then the code falls back to the fair value.
-/

namespace Stoppage.Quant
open Clamp
set_option autoImplicit false

/-- The machine without rounding. -/
def Machine.exact (m : Machine) : Machine := { m with round := id }

/-! ## The interval -/

def halfSpread (ci : ℚ × ℚ) (params : ModelParams) : ℚ :=
  (params.spreadBaseBps + params.spreadPerCiBps * max 0 (ci.2 - ci.1)) / 10000

/-- The share of the notional that is held, between minus one and one. -/
def Inventory.ratio (inventory : Inventory) : ℚ :=
  max (-1) (min 1 (if 0 < inventory.notional then inventory.netYes / inventory.notional else 0))

def skew (params : ModelParams) (inventory : Inventory) : ℚ :=
  -params.inventorySkew * inventory.ratio

/-- The clamped interval around a centre. -/
def around (fairValue half centre : ℚ) : MakerQuote where
  fairValue := fairValue
  bid := clamp (centre - half)
  ask := clamp (centre + half)

/-- Both ends are clamped to the same rail. -/
def Railed (half centre : ℚ) : Prop := centre + half ≤ 0 ∨ 1 ≤ centre - half

instance (half centre : ℚ) : Decidable (Railed half centre) := inferInstanceAs (Decidable (_ ∨ _))

section Interval
variable {fairValue half centre : ℚ}

theorem halfSpread_nonneg {ci : ℚ × ℚ} {params : ModelParams} (hbase : 0 ≤ params.spreadBaseBps)
    (hperCi : 0 ≤ params.spreadPerCiBps) : 0 ≤ halfSpread ci params := by
  have hwidth : 0 ≤ max 0 (ci.2 - ci.1) := le_max_left _ _
  rw [halfSpread]
  positivity

theorem halfSpread_pos {ci : ℚ × ℚ} {params : ModelParams} (hbase : 0 < params.spreadBaseBps)
    (hperCi : 0 ≤ params.spreadPerCiBps) : 0 < halfSpread ci params := by
  have hwidth : 0 ≤ max 0 (ci.2 - ci.1) := le_max_left _ _
  rw [halfSpread]
  positivity

theorem around_crossed_iff (hhalf : 0 ≤ half) :
    (around fairValue half centre).ask ≤ (around fairValue half centre).bid ↔
      half = 0 ∨ Railed half centre := by
  rw [around, ← not_lt, clamp_lt_clamp_iff, Railed]
  constructor
  · intro h
    by_contra hnot
    simp only [not_or, not_le] at hnot
    have hpos : 0 < half := lt_of_le_of_ne hhalf (Ne.symm hnot.1)
    exact h ⟨by linarith, hnot.2.2, hnot.2.1⟩
  · rintro (hzero | hlow | hhigh) ⟨hlt, h1, h0⟩
    · linarith
    · linarith
    · linarith

theorem not_railed_fair (hfair : 0 ≤ fairValue ∧ fairValue ≤ 1) (hhalf : 0 < half) :
    ¬ Railed half fairValue := by
  rintro (hlow | hhigh)
  · linarith
  · linarith

theorem around_fair (hfair : 0 ≤ fairValue ∧ fairValue ≤ 1) (hhalf : 0 ≤ half) :
    around fairValue half fairValue =
      ⟨fairValue, max 0 (fairValue - half), min 1 (fairValue + half)⟩ := by
  rw [around, clamp_eq_max (by linarith), clamp_eq_min (by linarith)]

end Interval

/-- Where the quote is centred, and how wide it is. -/
def placed (fairValue half mid : ℚ) : MakerQuote :=
  if half = 0 then around fairValue (1 / 1000) fairValue
  else if Railed half mid then around fairValue half fairValue
  else around fairValue half mid

/-- The fallbacks, one after the other. -/
def withFallbacks (fairValue half mid : ℚ) : MakerQuote :=
  let first := (clamp (mid - half), clamp (mid + half))
  let second := if first.2 ≤ first.1 then (max 0 (fairValue - half), min 1 (fairValue + half))
    else first
  let third := if second.2 ≤ second.1 then
    (max 0 (fairValue - 1 / 1000), min 1 (fairValue + 1 / 1000)) else second
  let last := if third.2 ≤ third.1 then (fairValue, min 1 (fairValue + 1 / 10000)) else third
  { fairValue, bid := last.1, ask := last.2 }

section Quotes
variable {m : Machine} {fairValue : ℚ} {ci : ℚ × ℚ} {params : ModelParams}

theorem makeQuote_eq (inventory : Inventory) : makeQuote m.exact fairValue ci params inventory =
    withFallbacks fairValue (halfSpread ci params) (fairValue + skew params inventory) := rfl

/-- **What `makeQuote` returns**: the last of its fallbacks is never reached. -/
theorem withFallbacks_eq {half : ℚ} (hfair : 0 ≤ fairValue ∧ fairValue ≤ 1) (hhalf : 0 ≤ half)
    (mid : ℚ) : withFallbacks fairValue half mid = placed fairValue half mid := by
  have hthousandth : (0 : ℚ) < 1 / 1000 := by norm_num
  have hfirst := @around_crossed_iff fairValue half mid hhalf
  have hsecond := @around_crossed_iff fairValue half fairValue hhalf
  have hthird : ¬ (around fairValue (1 / 1000) fairValue).ask ≤
      (around fairValue (1 / 1000) fairValue).bid := by
    rw [around_crossed_iff hthousandth.le]
    rintro (hzero | hrailed)
    · exact hthousandth.ne' hzero
    · exact not_railed_fair hfair hthousandth hrailed
  rw [around_fair hfair hthousandth.le] at hthird
  rw [around_fair hfair hhalf] at hsecond
  rw [placed, around_fair hfair hthousandth.le, around_fair hfair hhalf]
  by_cases hzero : half = 0
  · rw [if_pos hzero]
    have hone := hfirst.mpr (.inl hzero)
    have htwo := hsecond.mpr (.inl hzero)
    simp only [withFallbacks, around] at hone htwo hthird ⊢
    rw [if_pos hone, if_pos htwo, if_neg hthird]
  · have hpos : 0 < half := lt_of_le_of_ne hhalf (Ne.symm hzero)
    rw [if_neg hzero]
    by_cases hrailed : Railed half mid
    · rw [if_pos hrailed]
      have hone := hfirst.mpr (.inr hrailed)
      have htwo := mt hsecond.mp (not_or.mpr ⟨hzero, not_railed_fair hfair hpos⟩)
      simp only [withFallbacks, around] at hone htwo ⊢
      rw [if_pos hone, if_neg htwo, if_neg htwo]
    · rw [if_neg hrailed]
      have hone := mt hfirst.mp (not_or.mpr ⟨hzero, hrailed⟩)
      simp only [withFallbacks, around] at hone ⊢
      rw [if_neg hone, if_neg hone, if_neg hone]

theorem not_crossed {half mid : ℚ} (hfair : 0 ≤ fairValue ∧ fairValue ≤ 1) (hhalf : 0 ≤ half) :
    (placed fairValue half mid).bid < (placed fairValue half mid).ask := by
  have hpos (h : half ≠ 0) : 0 < half := lt_of_le_of_ne hhalf (Ne.symm h)
  rw [placed]
  split_ifs with hzero hrailed
  · have hthousandth : (0 : ℚ) < 1 / 1000 := by norm_num
    refine not_le.mp (mt (around_crossed_iff hthousandth.le).mp (not_or.mpr ⟨hthousandth.ne', ?_⟩))
    exact not_railed_fair hfair hthousandth
  · refine not_le.mp (mt (around_crossed_iff hhalf).mp (not_or.mpr ⟨hzero, ?_⟩))
    exact not_railed_fair hfair (hpos hzero)
  · exact not_le.mp (mt (around_crossed_iff hhalf).mp (not_or.mpr ⟨hzero, hrailed⟩))

theorem placed_mem (fairValue half mid : ℚ) :
    0 ≤ (placed fairValue half mid).bid ∧ (placed fairValue half mid).ask ≤ 1 := by
  rw [placed]
  split_ifs <;> exact ⟨clamp_nonneg, clamp_le_one⟩

/-- **Quotes never cross.** -/
theorem quote_never_crosses (m : Machine) (fairValue : ℚ) (ci : ℚ × ℚ) (params : ModelParams)
    (inventory : Inventory) (hfair : 0 ≤ fairValue ∧ fairValue ≤ 1)
    (hbase : 0 ≤ params.spreadBaseBps) (hperCi : 0 ≤ params.spreadPerCiBps) :
    0 ≤ (makeQuote m.exact fairValue ci params inventory).bid ∧
      (makeQuote m.exact fairValue ci params inventory).bid <
        (makeQuote m.exact fairValue ci params inventory).ask ∧
      (makeQuote m.exact fairValue ci params inventory).ask ≤ 1 := by
  have hhalf := @halfSpread_nonneg ci params hbase hperCi
  rw [makeQuote_eq, withFallbacks_eq hfair hhalf]
  obtain ⟨hlow, hhigh⟩ := placed_mem fairValue (halfSpread ci params)
    (fairValue + skew params inventory)
  exact ⟨hlow, not_crossed hfair hhalf, hhigh⟩

end Quotes

namespace Sample

def machine : Machine where
  round := id
  sqrt := id
  exp := id
  numberText _ := []
  sha256 _ := []

/-- The quote of the published model for a narrow interval, with a notional of one. -/
def quote (fairValue netYes : ℚ) : MakerQuote :=
  makeQuote machine.exact fairValue (9 / 20, 11 / 20) defaultModelParams ⟨netYes, 1⟩

end Sample

theorem quote_never_crosses_certain : 0 ≤ (Sample.quote 1 0).bid ∧
    (Sample.quote 1 0).bid < (Sample.quote 1 0).ask ∧ (Sample.quote 1 0).ask ≤ 1 :=
  quote_never_crosses Sample.machine 1 (9 / 20, 11 / 20) defaultModelParams ⟨0, 1⟩ (by norm_num)
    (by norm_num [defaultModelParams]) (by norm_num [defaultModelParams])

section Quotes
variable {m : Machine} {fairValue : ℚ} {ci : ℚ × ℚ} {params : ModelParams}

/-! ## Around the fair value -/

def MakerQuote.Brackets (q : MakerQuote) : Prop := q.bid ≤ q.fairValue ∧ q.fairValue ≤ q.ask

/-- Neither bid nor ask rises with the position. -/
def Falls (quote : ℚ → MakerQuote) : Prop :=
  (Antitone fun netYes => (quote netYes).bid) ∧ Antitone fun netYes => (quote netYes).ask

theorem around_fair_brackets {half : ℚ} (hfair : 0 ≤ fairValue ∧ fairValue ≤ 1) (hhalf : 0 ≤ half) :
    (around fairValue half fairValue).Brackets := by
  rw [MakerQuote.Brackets, around, clamp_le_iff hfair.1, le_clamp_iff hfair.2]
  exact ⟨.inl (by linarith), .inl (by linarith)⟩

theorem placed_brackets_iff {half mid : ℚ} (hfair : 0 ≤ fairValue ∧ fairValue ≤ 1)
    (hhalf : 0 < half) : (placed fairValue half mid).Brackets ↔
      Railed half mid ∨ |mid - fairValue| ≤ half := by
  rw [placed, if_neg hhalf.ne']
  by_cases hrailed : Railed half mid
  · rw [if_pos hrailed]
    exact iff_of_true (around_fair_brackets hfair hhalf.le) (.inl hrailed)
  · rw [if_neg hrailed, or_iff_right hrailed, MakerQuote.Brackets, around, clamp_le_iff hfair.1,
      le_clamp_iff hfair.2, abs_le]
    rw [Railed, not_or, not_le, not_le] at hrailed
    constructor
    · -- At a rail the interval would have to be clamped to it as a whole.
      rintro ⟨hbid | hone, hask | hzero⟩
      · exact ⟨by linarith, by linarith⟩
      · exact ⟨by linarith, by linarith⟩
      · exact ⟨by linarith, by linarith⟩
      · exact ⟨by linarith, by linarith⟩
    · rintro ⟨hlow, hhigh⟩
      exact ⟨.inl (by linarith), .inl (by linarith)⟩

theorem placed_mirror (half mid : ℚ) :
    (placed (1 - fairValue) half (1 - mid)).ask = 1 - (placed fairValue half mid).bid := by
  have hrailed : Railed half (1 - mid) ↔ Railed half mid := by
    rw [Railed, Railed]
    constructor
    · rintro (h | h)
      · exact .inr (by linarith)
      · exact .inl (by linarith)
    · rintro (h | h)
      · exact .inr (by linarith)
      · exact .inl (by linarith)
  have haround (half centre : ℚ) : (around (1 - fairValue) half (1 - centre)).ask =
      1 - (around fairValue half centre).bid := by
    rw [around, around, ← clamp_one_sub]
    ring_nf
  rw [placed, placed]
  simp only [hrailed]
  split_ifs
  · exact haround _ _
  · exact haround _ _
  · exact haround _ _

/-- A long position that pushes the quote onto the lower rail is asked more than a smaller one. -/
theorem exists_ask_rises {half s : ℚ} (hfair : 0 ≤ fairValue ∧ fairValue ≤ 1) (hhalf : 0 < half)
    (h : fairValue + half ≤ s) : ∃ t, 0 ≤ t ∧ t < 1 ∧
      (placed fairValue half (fairValue - s * t)).ask <
        (placed fairValue half (fairValue - s * 1)).ask := by
  have hs : 0 < s := by linarith
  obtain ⟨δ, hδ⟩ : ∃ δ, δ = min 1 (fairValue + half) / 2 := ⟨_, rfl⟩
  have hδpos : 0 < δ := by
    rw [hδ]
    exact half_pos (lt_min one_pos (by linarith))
  have hδone : 2 * δ ≤ 1 := by
    rw [hδ, mul_div_cancel₀ _ two_ne_zero]
    exact min_le_left _ _
  have hδsum : 2 * δ ≤ fairValue + half := by
    rw [hδ, mul_div_cancel₀ _ two_ne_zero]
    exact min_le_right _ _
  have hmid : fairValue - s * ((fairValue + half - δ) / s) = δ - half := by
    rw [mul_div_cancel₀ _ hs.ne']
    ring
  refine ⟨(fairValue + half - δ) / s, div_nonneg (by linarith) hs.le,
    (div_lt_one hs).mpr (by linarith), ?_⟩
  have hfree : ¬ Railed half (δ - half) := by
    rintro (hlow | hhigh)
    · linarith
    · linarith
  have hrailed : Railed half (fairValue - s * 1) := .inl (by linarith)
  rw [hmid, placed, placed, if_neg hhalf.ne', if_neg hhalf.ne', if_neg hfree, if_pos hrailed]
  calc clamp (δ - half + half) = δ := by
        rw [sub_add_cancel, clamp_of_mem hδpos.le (by linarith)]
    _ < 2 * δ := by linarith
    _ = clamp (fairValue + half) := by
      rw [hδ, mul_div_cancel₀ _ two_ne_zero, clamp_eq_min (by linarith)]

theorem exists_bid_rises {half s : ℚ} (hfair : 0 ≤ fairValue ∧ fairValue ≤ 1) (hhalf : 0 < half)
    (h : 1 - fairValue + half ≤ s) : ∃ t, 0 ≤ t ∧ t < 1 ∧
      (placed fairValue half (fairValue - s * (-1))).bid <
        (placed fairValue half (fairValue - s * (-t))).bid := by
  obtain ⟨t, h0, h1, hrises⟩ := @exists_ask_rises (1 - fairValue) half s
    ⟨by linarith, by linarith⟩ hhalf h
  refine ⟨t, h0, h1, ?_⟩
  have hmirror (t : ℚ) : (placed (1 - fairValue) half (1 - fairValue - s * t)).ask =
      1 - (placed fairValue half (fairValue - s * (-t))).bid := by
    rw [← placed_mirror]
    ring_nf
  rw [hmirror, hmirror] at hrises
  linarith

/-! ## Positions -/

theorem ratio_mul {t notional : ℚ} (hlow : -1 ≤ t) (hhigh : t ≤ 1) (hnotional : 0 < notional) :
    (Inventory.mk (t * notional) notional).ratio = t := by
  rw [Inventory.ratio, if_pos hnotional, mul_div_cancel_right₀ _ hnotional.ne', min_eq_right hhigh,
    max_eq_right hlow]

theorem ratio_mono {x y notional : ℚ} (hnotional : 0 < notional) (h : x ≤ y) :
    (Inventory.mk x notional).ratio ≤ (Inventory.mk y notional).ratio := by
  rw [Inventory.ratio, Inventory.ratio, if_pos hnotional, if_pos hnotional]
  exact max_le_max_left _ (min_le_min_left _ (div_le_div_of_nonneg_right h hnotional.le))

theorem ratio_mem (inventory : Inventory) : -1 ≤ inventory.ratio ∧ inventory.ratio ≤ 1 :=
  ⟨le_max_left _ _, max_le (by norm_num) (min_le_left _ _)⟩

theorem not_railed_of_lt {half : ℚ} (hskew : 0 ≤ params.inventorySkew)
    (hlow : params.inventorySkew < fairValue + half)
    (hhigh : params.inventorySkew < 1 - fairValue + half) (inventory : Inventory) :
    ¬ Railed half (fairValue + skew params inventory) := by
  obtain ⟨hfrom, hto⟩ := ratio_mem inventory
  have hup : params.inventorySkew * inventory.ratio ≤ params.inventorySkew * 1 :=
    mul_le_mul_of_nonneg_left hto hskew
  have hdown : params.inventorySkew * -1 ≤ params.inventorySkew * inventory.ratio :=
    mul_le_mul_of_nonneg_left hfrom hskew
  rw [skew, neg_mul]
  rintro (h | h)
  · linarith
  · linarith

theorem falls_iff {half notional : ℚ} (hfair : 0 ≤ fairValue ∧ fairValue ≤ 1) (hhalf : 0 < half)
    (hskew : 0 ≤ params.inventorySkew) (hnotional : 0 < notional) :
    Falls (fun netYes => placed fairValue half (fairValue + skew params ⟨netYes, notional⟩)) ↔
      params.inventorySkew < fairValue + half ∧ params.inventorySkew < 1 - fairValue + half := by
  have hmid {t : ℚ} (hlow : -1 ≤ t) (hhigh : t ≤ 1) :
      fairValue + skew params ⟨t * notional, notional⟩ = fairValue - params.inventorySkew * t := by
    rw [skew, ratio_mul hlow hhigh hnotional]
    ring
  constructor
  · rintro ⟨hbids, hasks⟩
    constructor
    · by_contra hlarge
      obtain ⟨t, h0, h1, hrises⟩ := exists_ask_rises hfair hhalf (not_lt.mp hlarge)
      have hask := hasks (mul_le_mul_of_nonneg_right h1.le hnotional.le)
      simp only [hmid (t := t) (by linarith) h1.le, hmid (t := 1) (by norm_num) le_rfl] at hask
      exact absurd hask (not_le.mpr hrises)
    · by_contra hlarge
      obtain ⟨t, h0, h1, hrises⟩ := exists_bid_rises hfair hhalf (not_lt.mp hlarge)
      have hbid := hbids (mul_le_mul_of_nonneg_right (neg_le_neg h1.le) hnotional.le)
      simp only [hmid (t := -t) (by linarith) (by linarith),
        hmid (t := -1) le_rfl (by norm_num)] at hbid
      exact absurd hbid (not_le.mpr hrises)
  · rintro ⟨hlow, hhigh⟩
    have hplaced (netYes : ℚ) :
        placed fairValue half (fairValue + skew params ⟨netYes, notional⟩) =
          around fairValue half (fairValue + skew params ⟨netYes, notional⟩) := by
      rw [placed, if_neg hhalf.ne', if_neg (not_railed_of_lt hskew hlow hhigh _)]
    have hfalls {x y : ℚ} (h : x ≤ y) : fairValue + skew params ⟨y, notional⟩ ≤
        fairValue + skew params ⟨x, notional⟩ := by
      have hratio := mul_le_mul_of_nonneg_left (ratio_mono hnotional h) hskew
      rw [skew, skew, neg_mul, neg_mul]
      linarith
    simp only [Falls, hplaced]
    constructor
    · intro x y h
      exact clamp_mono (sub_le_sub_right (hfalls h) _)
    · intro x y h
      exact clamp_mono (add_le_add_left (hfalls h) _)

/-- **When a quote brackets the fair value, and when it falls with the position.** The skew stays
within the half spread, or the quote is centred on the fair value again because it would lie on a
rail; and no position can push it onto a rail. -/
theorem quotes_bracket_iff (m : Machine) (fairValue : ℚ) (ci : ℚ × ℚ) (params : ModelParams)
    (hfair : 0 ≤ fairValue ∧ fairValue ≤ 1) (hbase : 0 < params.spreadBaseBps)
    (hperCi : 0 ≤ params.spreadPerCiBps) (hskew : 0 ≤ params.inventorySkew) :
    (∀ inventory, (makeQuote m.exact fairValue ci params inventory).Brackets ↔
      |skew params inventory| ≤ halfSpread ci params ∨
        Railed (halfSpread ci params) (fairValue + skew params inventory)) ∧
    ∀ notional, 0 < notional →
      (Falls (fun netYes => makeQuote m.exact fairValue ci params ⟨netYes, notional⟩) ↔
        params.inventorySkew < fairValue + halfSpread ci params ∧
          params.inventorySkew < 1 - fairValue + halfSpread ci params) := by
  have hhalf := @halfSpread_pos ci params hbase hperCi
  constructor
  · intro inventory
    rw [makeQuote_eq, withFallbacks_eq hfair hhalf.le, placed_brackets_iff hfair hhalf,
      add_sub_cancel_left, or_comm]
  · intro notional hnotional
    simp only [makeQuote_eq, withFallbacks_eq hfair hhalf.le]
    exact falls_iff hfair hhalf hskew hnotional

end Quotes

/-- At even odds the published model is far enough from the rails. -/
theorem quotes_bracket_iff_even : (Sample.quote (1 / 2) 0).Brackets ∧ Falls (Sample.quote (1 / 2)) := by
  obtain ⟨hbrackets, hfalls⟩ := quotes_bracket_iff Sample.machine (1 / 2) (9 / 20, 11 / 20)
    defaultModelParams (by norm_num) (by norm_num [defaultModelParams])
    (by norm_num [defaultModelParams]) (by norm_num [defaultModelParams])
  exact ⟨(hbrackets ⟨0, 1⟩).mpr (by decide +kernel), (hfalls 1 one_pos).mpr (by decide +kernel)⟩

/-- With a long position of the whole notional the ask is below the fair value, and near the lower
rail the ask rises when the position grows. -/
theorem long_quote_misses :
    (Sample.quote (1 / 2) 1).ask < (Sample.quote (1 / 2) 1).fairValue ∧
      (Sample.quote (1 / 20) (2 / 5)).ask < (Sample.quote (1 / 20) 1).ask := by
  decide +kernel

end Stoppage.Quant

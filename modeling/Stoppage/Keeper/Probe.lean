import Stoppage.Keeper.Price
import Stoppage.Lib.Sampling

/-! # Which observation a price market is settled on

The keeper looks for an update at a few times after the reference time, each capped by the clock.
`probe_complete`: it misses no window, and what it selects passes `validate_price` with the outcome
it has computed. `one_observation_iff`: which update it selects depends on when it runs, unless a
probe falls between the first update of the window and every other one.
-/

namespace Stoppage.Keeper
open Fallible LittleEndian Sdk Escrow PythValidator Sampling
set_option autoImplicit false

/-! ## The endpoint -/

/-- What a feed has published, in order. -/
structure History (us : List Update) : Prop where
  ordered : Ordered Update.time us
  nodup : us.Nodup

/-- From a time on, the endpoint answers with the latest update at or before the time it is asked
for. -/
def Serves (fetchUpdateAt : ℤ → Except SdkError Update) (us : List Update) (lo : ℤ) : Prop :=
  ∀ ts, lo ≤ ts → ∃ u, latest Update.time us ts = some u ∧ fetchUpdateAt ts = .ok u

def InWindow (referenceTs : ℤ) (u : Update) : Prop :=
  referenceTs ≤ u.time ∧ u.time ≤ referenceTs + maxStalenessSeconds

/-- The market is settled on an update of the feed. -/
def OnHermes (cfg : PriceConfig) (m : TrackedPriceMarket) : Prop :=
  m.oracle.getD pythValidatorId = pythValidatorId ∧ cfg.attestation = false

/-! ## The search -/

def probeTimes (referenceTs nowSec : ℤ) (offs : List ℤ) : List ℤ :=
  offs.map fun off => min (referenceTs + off) nowSec

section Search
variable {fetchUpdateAt : ℤ → Except SdkError Update} {us post : List Update} {u : Update}
  {referenceTs nowSec : ℤ} {offs : List ℤ}

/-- The loop is a search through the history; neither the end of the window nor the early exit takes
anything away from it. -/
theorem probe_eq_search (h : Serves fetchUpdateAt us (min referenceTs nowSec))
    (hsorted : offs.Pairwise (· < ·)) (hbounds : ∀ off ∈ offs, 0 ≤ off ∧ off ≤ maxStalenessSeconds) :
    probe fetchUpdateAt referenceTs nowSec offs =
      .ok (search Update.time us referenceTs (probeTimes referenceTs nowSec offs)) := by
  induction offs with
  | nil => rfl
  | cons off offs ih =>
    obtain ⟨hfirst, hrest⟩ := List.pairwise_cons.mp hsorted
    obtain ⟨hlow, hhigh⟩ := hbounds off List.mem_cons_self
    have hle : min (referenceTs + off) nowSec ≤ referenceTs + off := min_le_left _ _
    obtain ⟨j, hj, hfetch⟩ := h (min (referenceTs + off) nowSec)
      (min_le_min_right _ (by omega))
    have hjle := (mem_of_latest hj).2
    rw [probe, hfetch, ok_bind, probeTimes, List.map_cons, search, hj]
    dsimp only
    by_cases hin : referenceTs ≤ j.time
    · rw [if_pos ⟨hin, by omega⟩, if_pos hin]
      rfl
    · rw [if_neg fun hboth => hin hboth.1, if_neg hin]
      split
      · -- The probe is the last: an offset behind it would be past the end of the window.
        rename_i hlast
        cases offs with
        | nil => rfl
        | cons next offs =>
          have hnext := hfirst next List.mem_cons_self
          have hend := (hbounds next (List.mem_cons_of_mem _ List.mem_cons_self)).2
          omega
      · exact ih hrest fun o ho => hbounds o (List.mem_cons_of_mem _ ho)

theorem probe_offsets (h : Serves fetchUpdateAt us (min referenceTs nowSec)) :
    probe fetchUpdateAt referenceTs nowSec probeOffsetsSeconds =
      .ok (search Update.time us referenceTs
        (probeTimes referenceTs nowSec probeOffsetsSeconds)) :=
  probe_eq_search h (by decide) (by decide)

theorem inWindow_of_found (h : search Update.time us referenceTs
    (probeTimes referenceTs nowSec probeOffsetsSeconds) = some u) :
    u ∈ us ∧ InWindow referenceTs u ∧ u.time ≤ nowSec := by
  obtain ⟨hmem, hlow, p, hp, hle⟩ := mem_of_search h
  obtain ⟨off, hoff, rfl⟩ := List.mem_map.mp hp
  have hbound : ∀ off ∈ probeOffsetsSeconds, off ≤ maxStalenessSeconds := by decide
  have hend := hbound off hoff
  have hprobe := le_min_iff.mp hle
  exact ⟨hmem, ⟨hlow, by omega⟩, hprobe.2⟩

/-- An update is found when one of the window has been published by the time of the run. -/
theorem exists_found (hus : Ordered Update.time us) (hu : u ∈ us) (hin : InWindow referenceTs u)
    (hnow : u.time ≤ nowSec) : ∃ x, search Update.time us referenceTs
      (probeTimes referenceTs nowSec probeOffsetsSeconds) = some x :=
  hus.search_isSome.mpr ⟨u, hu, hin.1, _,
    List.mem_map_of_mem (show maxStalenessSeconds ∈ probeOffsetsSeconds by decide),
    le_min hin.2 hnow⟩

/-- The first of a sorted list is the least. -/
theorem le_of_find? {p : ℤ → Bool} {a b : ℤ} (hsorted : offs.Pairwise (· < ·))
    (ha : offs.find? p = some a) (hb : b ∈ offs) (hpb : p b = true) : a ≤ b := by
  obtain ⟨-, before, after, rfl, hbefore⟩ := List.find?_eq_some_iff_append.mp ha
  rcases List.mem_append.mp hb with hb | hb
  · have hno := hbefore b hb
    rw [hpb] at hno
    cases hno
  · rcases List.mem_cons.mp hb with rfl | hb
    · exact le_rfl
    · exact (List.rel_of_pairwise_cons (List.pairwise_append.mp hsorted).2.1 hb).le

/-- The first update of the window is found when a probe falls between it and every other one by
the time of the run. -/
theorem found_first_iff (hus : History us) (hsince : since Update.time us referenceTs = u :: post)
    (hend : u.time ≤ referenceTs + maxStalenessSeconds) (hnow : u.time ≤ nowSec) :
    search Update.time us referenceTs (probeTimes referenceTs nowSec probeOffsetsSeconds) =
        some u ↔
      ∀ w ∈ post, w.time ≤ nowSec →
        ∃ off ∈ probeOffsetsSeconds, u.time ≤ referenceTs + off ∧ referenceTs + off < w.time := by
  rw [hus.ordered.search_eq_first_iff hus.nodup hsince, probeTimes, List.find?_map]
  have hsome : (probeOffsetsSeconds.find?
      ((fun p => decide (u.time ≤ p)) ∘ fun off => min (referenceTs + off) nowSec)).isSome := by
    refine List.find?_isSome.mpr ⟨maxStalenessSeconds, by decide, ?_⟩
    exact decide_eq_true (le_min hend hnow)
  obtain ⟨off, hoff⟩ := Option.isSome_iff_exists.mp hsome
  have hreached := List.find?_some hoff
  have hboth := le_min_iff.mp (of_decide_eq_true hreached)
  have hmem := List.mem_of_find?_eq_some hoff
  rw [hoff]
  constructor
  · rintro ⟨p, hp, hafter⟩ w hw hwnow
    cases hp
    have hlt := hafter w hw
    refine ⟨off, hmem, hboth.1, ?_⟩
    rcases min_lt_iff.mp hlt with hlt | hlt
    · exact hlt
    · exact absurd hwnow (not_le.mpr hlt)
  · intro hprobed
    refine ⟨_, rfl, fun w hw => ?_⟩
    by_cases hwnow : w.time ≤ nowSec
    · obtain ⟨off', hmem', hle', hlt'⟩ := hprobed w hw hwnow
      have hfirst := le_of_find? (by decide) hoff hmem'
        (decide_eq_true (le_min hle' hnow))
      have hcap : min (referenceTs + off) nowSec ≤ referenceTs + off := min_le_left _ _
      show min (referenceTs + off) nowSec < w.time
      omega
    · exact (min_le_right _ _).trans_lt (not_le.mp hwnow)

end Search

/-! ## The result -/

section Result
variable {cfg : PriceConfig} {fetchUpdateAt : ℤ → Except SdkError Update} {us : List Update}
  {m : TrackedPriceMarket} {t t' nowSec : ℤ}

theorem settlePriceMarket_of_onHermes (h : OnHermes cfg m)
    (hserves : Serves fetchUpdateAt us (min m.referenceTs nowSec)) :
    settlePriceMarket cfg fetchUpdateAt m nowSec =
      .ok (match search Update.time us m.referenceTs
          (probeTimes m.referenceTs nowSec probeOffsetsSeconds) with
        | none => .result (if m.referenceTs + maxStalenessSeconds < nowSec then .unresolvable
          else .pending)
        | some u => .observed u (if m.thresholdRaw ≤ u.price.toInt then 0 else 1)) := by
  have hother : ¬ (pythValidatorId = attestationValidatorId) := by decide
  rw [settlePriceMarket]
  simp only [h.1, h.2, if_neg hother, ne_eq, not_true, if_false, Bool.false_eq_true,
    probe_offsets hserves, ok_bind]
  cases search Update.time us m.referenceTs (probeTimes m.referenceTs nowSec probeOffsetsSeconds)
  · rfl
  · rfl

/-- A market on another oracle, or on none, is left to the other path or given up at once. -/
theorem onHermes_of_settlePriceMarket {r : Attempt}
    (h : settlePriceMarket cfg fetchUpdateAt m nowSec = .ok r) (hattested : r ≠ .attested)
    (hsupported : r ≠ .result .unsupported) : OnHermes cfg m := by
  rw [settlePriceMarket] at h
  dsimp only at h
  split at h
  · cases h
    exact absurd rfl hattested
  · split at h
    · cases h
      exact absurd rfl hsupported
    · rename_i hpyth
      split at h
      · cases h
        exact absurd rfl hsupported
      · rename_i hmode
        exact ⟨not_not.mp hpyth, Bool.not_eq_true _ ▸ hmode⟩

theorem observed_iff {u : Update} {o : ℤ}
    (hserves : Serves fetchUpdateAt us (min m.referenceTs nowSec)) :
    settlePriceMarket cfg fetchUpdateAt m nowSec = .ok (.observed u o) ↔
      OnHermes cfg m ∧ search Update.time us m.referenceTs
        (probeTimes m.referenceTs nowSec probeOffsetsSeconds) = some u ∧
        o = if m.thresholdRaw ≤ u.price.toInt then 0 else 1 := by
  constructor
  · intro h
    have hroute := onHermes_of_settlePriceMarket h (by simp) (by simp)
    rw [settlePriceMarket_of_onHermes hroute hserves] at h
    refine ⟨hroute, ?_⟩
    split at h
    · cases h
    · rename_i v hv
      cases h
      exact ⟨hv, rfl⟩
  · rintro ⟨hroute, hu, rfl⟩
    rw [settlePriceMarket_of_onHermes hroute hserves, hu]

/-- The update is the first that was published in the window. -/
def FirstInWindow (us : List Update) (referenceTs : ℤ) (u : Update) : Prop :=
  (∃ post, since Update.time us referenceTs = u :: post) ∧ InWindow referenceTs u

/-- Between the first update of the window, where it was out by the earlier time, and every other
update that was out by the later one, a probe falls. -/
def ProbeAfterFirst (us : List Update) (referenceTs earlier later : ℤ) : Prop :=
  ∀ u post, since Update.time us referenceTs = u :: post →
    u.time ≤ referenceTs + maxStalenessSeconds → u.time ≤ earlier →
    ∀ w ∈ post, w.time ≤ later →
      ∃ off ∈ probeOffsetsSeconds, u.time ≤ referenceTs + off ∧ referenceTs + off < w.time

/-- **One observation.** Two runs that both select an update select the first of the window, and so
one and the same with one outcome, exactly when a probe falls between it and every other update. -/
theorem one_observation_iff (hus : History us) (hserves : Serves fetchUpdateAt us m.referenceTs)
    (ht : m.referenceTs ≤ t) (ht' : m.referenceTs ≤ t') :
    (∀ u v o o', settlePriceMarket cfg fetchUpdateAt m t = .ok (.observed u o) →
      settlePriceMarket cfg fetchUpdateAt m t' = .ok (.observed v o') →
      u = v ∧ FirstInWindow us m.referenceTs u ∧ o = o') ↔
    (OnHermes cfg m → ProbeAfterFirst us m.referenceTs (min t t') (max t t')) := by
  have hs : Serves fetchUpdateAt us (min m.referenceTs t) := by rwa [min_eq_left ht]
  have hs' : Serves fetchUpdateAt us (min m.referenceTs t') := by rwa [min_eq_left ht']
  constructor
  · intro hall hroute u post hsince hend hearlier
    obtain ⟨⟨pre, hsplit, -⟩, hlow⟩ := split_of_since hsince
    have hmem : u ∈ us := hsplit ▸ List.mem_append_right _ List.mem_cons_self
    obtain ⟨hut, hut'⟩ := le_min_iff.mp hearlier
    obtain ⟨x, hx⟩ := exists_found hus.ordered hmem ⟨hlow, hend⟩ hut
    obtain ⟨y, hy⟩ := exists_found hus.ordered hmem ⟨hlow, hend⟩ hut'
    obtain ⟨rfl, ⟨⟨post', hfirst⟩, -⟩, -⟩ := hall x y _ _
      ((observed_iff hs).mpr ⟨hroute, hx, rfl⟩) ((observed_iff hs').mpr ⟨hroute, hy, rfl⟩)
    cases hsince.symm.trans hfirst
    rcases le_total t t' with hle | hle
    · rw [max_eq_right hle]
      exact (found_first_iff hus hsince hend hut').mp hy
    · rw [max_eq_left hle]
      exact (found_first_iff hus hsince hend hut).mp hx
  · intro hprobed u v o o' hrun hrun'
    obtain ⟨hroute, hu, rfl⟩ := (observed_iff hs).mp hrun
    obtain ⟨-, hv, rfl⟩ := (observed_iff hs').mp hrun'
    obtain ⟨hw, ⟨hlow, hhigh⟩, hwt⟩ := inWindow_of_found hu
    obtain ⟨hw', ⟨hlow', hhigh'⟩, hwt'⟩ := inWindow_of_found hv
    cases hsince : since Update.time us m.referenceTs with
    | nil => exact absurd (lt_of_since_nil hsince u hw) (not_lt.mpr hlow)
    | cons first post =>
      have hle := hus.ordered.first_le hsince hw hlow
      have hft := hle.trans hwt
      have hft' := (hus.ordered.first_le hsince hw' hlow').trans hwt'
      have hend := hle.trans hhigh
      have hafter := hprobed hroute first post hsince hend (le_min hft hft')
      have hfound := (found_first_iff hus hsince hend hft).mpr fun w hw hwt =>
        hafter w hw (hwt.trans (le_max_left _ _))
      have hfound' := (found_first_iff hus hsince hend hft').mpr fun w hw hwt =>
        hafter w hw (hwt.trans (le_max_right _ _))
      cases hu.symm.trans hfound
      cases hv.symm.trans hfound'
      exact ⟨rfl, ⟨⟨post, hsince⟩, (split_of_since hsince).2, hend⟩, rfl⟩

/-- The arguments of `validate_price` that the transaction for the market carries. -/
structure Asks (m : TrackedPriceMarket) (a : Args) : Prop where
  threshold : a.threshold.toInt = m.thresholdRaw
  referenceTs : a.referenceTs.toInt = m.referenceTs
  maxStalenessSeconds : (a.maxStalenessSeconds.toNat : ℤ) = maxStalenessSeconds

theorem Asks.admits_iff {a : Args} {u : Update} (h : Asks m a) :
    a.Admits u ↔ InWindow m.referenceTs u := by
  rw [Args.Admits, Args.windowEnd, h.referenceTs, h.maxStalenessSeconds]
  rfl

theorem exists_asks (sha256 : Sha256) {feed : List.Vector UInt8 32} {account : Pubkey} {u : Update}
    {outcome : ℤ} {statement : String} (hfeed : fromHex cfg.feedId = feed.1)
    (hthreshold : FitsI64 m.thresholdRaw) (hreference : FitsI64 m.referenceTs) :
    ∃ a, Asks m a ∧ a.feedId = feed ∧ ∃ root : List.Vector UInt8 32,
      (pythOracle sha256).buildVerifySpec ⟨outcome, statement, pythProof cfg m account u⟩ = .ok
        { validatorProgram := pythValidatorId
          anchorAccounts := [.external account]
          instructionData := validatePriceDiscriminator ++ a.encode
          merkleRoot := root.1 } := by
  obtain ⟨threshold, hthreshold⟩ := exists_toInt hthreshold.1 hthreshold.2
  obtain ⟨referenceTs, hreference⟩ := exists_toInt hreference.1 hreference.2
  have hstaleness : writeUInt32LE maxStalenessSeconds = .ok (encodeU32 120) :=
    writeUInt32LE_toNat 120
  refine ⟨⟨feed, threshold, referenceTs, 120⟩, ⟨hthreshold, hreference, rfl⟩, rfl,
    pythObservationDigest sha256 (pythProof cfg m account u), ?_⟩
  rw [pythOracle]
  show (writeUInt32LE maxStalenessSeconds >>= _) = _
  rw [hstaleness, ok_bind]
  simp only [pythProof, hfeed, ← hthreshold, ← hreference, writeI64LE_toInt]
  rfl

/-- **The search is complete.** The keeper gives a market up only when the window has passed and
nothing was published in it; when something was, it selects an update; and what it selects, at any
time, is an update of the window that `validate_price` answers for with the outcome computed. -/
theorem probe_complete (hus : Ordered Update.time us)
    (hserves : Serves fetchUpdateAt us (min m.referenceTs nowSec)) :
    (settlePriceMarket cfg fetchUpdateAt m nowSec = .ok (.result .unresolvable) →
      m.referenceTs + maxStalenessSeconds < nowSec ∧ ∀ w ∈ us, ¬ InWindow m.referenceTs w) ∧
    (OnHermes cfg m → m.referenceTs + maxStalenessSeconds < nowSec →
      (∃ w ∈ us, InWindow m.referenceTs w) →
        ∃ u o, settlePriceMarket cfg fetchUpdateAt m nowSec = .ok (.observed u o)) ∧
    ∀ u o, settlePriceMarket cfg fetchUpdateAt m nowSec = .ok (.observed u o) →
      u ∈ us ∧ ∀ a, Asks m a → a.Admits u ∧ (a.windowEnd < 2 ^ 63 → ∀ (p : Posting) (rest : Bytes),
        validatePrice pythReceiverProgramId (p.encode a.feedId u ++ rest) a =
          .ok (decide (o = 0))) := by
  refine ⟨fun h => ?_, fun hroute hpassed hpublished => ?_, fun u o h => ?_⟩
  · have hroute := onHermes_of_settlePriceMarket h (by simp) (by simp)
    rw [settlePriceMarket_of_onHermes hroute hserves] at h
    split at h
    · rename_i hnone
      split at h
      · rename_i hpassed
        refine ⟨hpassed, fun w hw hin => ?_⟩
        obtain ⟨x, hx⟩ := exists_found hus hw hin (hin.2.trans hpassed.le)
        cases hnone.symm.trans hx
      · cases h
    · cases h
  · obtain ⟨w, hw, hin⟩ := hpublished
    obtain ⟨u, hu⟩ := exists_found hus hw hin (hin.2.trans hpassed.le)
    exact ⟨u, _, (observed_iff hserves).mpr ⟨hroute, hu, rfl⟩⟩
  · obtain ⟨-, hu, rfl⟩ := (observed_iff hserves).mp h
    obtain ⟨hmem, hin, -⟩ := inWindow_of_found hu
    refine ⟨hmem, fun a ha => ⟨ha.admits_iff.mpr hin, fun hfits p rest => ?_⟩⟩
    refine (validatePrice_append rest).mpr ⟨rfl, hfits, ha.admits_iff.mpr hin, ?_⟩
    refine decide_eq_decide.mpr ?_
    rw [Int64.le_iff_toInt_le, ha.threshold]
    split
    · rename_i hle
      exact iff_of_true rfl hle
    · rename_i hlt
      exact iff_of_false one_ne_zero hlt

end Result

namespace Sample

def update (price publishTime prevPublishTime : Int64) : Update :=
  ⟨price, 1000000, -8, publishTime, prevPublishTime, price, 1000000⟩

/-- An update before the reference time, and two in the first two seconds after it. -/
def falling : List Update :=
  [update 6605000000 1700000999 1700000998, update 6601000000 1700001001 1700000999,
    update 6599000000 1700001002 1700001001]

/-- The second update after the reference time comes in the fourth second. -/
def sparse : List Update :=
  [update 6605000000 1700000999 1700000998, update 6601000000 1700001001 1700000999,
    update 6599000000 1700001004 1700001001]

/-- The endpoint over a history. -/
def hermes (us : List Update) (ts : ℤ) : Except SdkError Update :=
  getOr (.error "Hermes returned no update for the feed") (latest Update.time us ts)

theorem hermes_serves {us : List Update} {u : Update} {lo : ℤ} (hu : u ∈ us) (hlo : u.time ≤ lo) :
    Serves (hermes us) us lo := by
  intro ts hts
  obtain ⟨x, hx⟩ := exists_latest hu (hlo.trans hts)
  exact ⟨x, hx, by rw [hermes, hx, getOr_some]⟩

theorem falling_history : History falling := ⟨by decide, by decide⟩

theorem sparse_history : History sparse := ⟨by decide, by decide⟩

end Sample

theorem one_observation_iff_sample : ∃ u,
    settlePriceMarket Sample.config (Sample.hermes Sample.sparse) Sample.market 1700001001 =
      .ok (.observed u 0) ∧
    settlePriceMarket Sample.config (Sample.hermes Sample.sparse) Sample.market 1700001060 =
      .ok (.observed u 0) ∧ FirstInWindow Sample.sparse 1700001000 u := by
  have hserves : Serves (Sample.hermes Sample.sparse) Sample.sparse Sample.market.referenceTs :=
    Sample.hermes_serves List.mem_cons_self (by decide)
  have hprobed : ProbeAfterFirst Sample.sparse Sample.market.referenceTs
      (min 1700001001 1700001060) (max 1700001001 1700001060) := by
    intro u post hsince _ _ w hw _
    cases hsince
    rw [List.mem_singleton.mp hw]
    exact ⟨2, by decide, by decide, by decide⟩
  have hearly : settlePriceMarket Sample.config (Sample.hermes Sample.sparse) Sample.market
      1700001001 = .ok (.observed (Sample.update 6601000000 1700001001 1700000999) 0) := by
    decide +kernel
  have hlate : settlePriceMarket Sample.config (Sample.hermes Sample.sparse) Sample.market
      1700001060 = .ok (.observed (Sample.update 6601000000 1700001001 1700000999) 0) := by
    decide +kernel
  obtain ⟨-, hfirst, -⟩ := (one_observation_iff Sample.sparse_history hserves (by decide)
    (by decide)).mpr (fun _ => hprobed) _ _ _ _ hearly hlate
  exact ⟨_, hearly, hlate, hfirst⟩

/-- Both updates are in by the first probe: a keeper that runs in the first second pays YES, one
that runs later NO. -/
theorem observation_moves : ¬ ∀ (cfg : PriceConfig) (m : TrackedPriceMarket)
    (fetchUpdateAt : ℤ → Except SdkError Update) (us : List Update) (t t' : ℤ),
    History us → Serves fetchUpdateAt us m.referenceTs → m.referenceTs ≤ t → m.referenceTs ≤ t' →
    ∀ u v o o', settlePriceMarket cfg fetchUpdateAt m t = .ok (.observed u o) →
      settlePriceMarket cfg fetchUpdateAt m t' = .ok (.observed v o') →
        u = v ∧ FirstInWindow us m.referenceTs u ∧ o = o' := by
  intro hall
  have hserves : Serves (Sample.hermes Sample.falling) Sample.falling Sample.market.referenceTs :=
    Sample.hermes_serves List.mem_cons_self (by decide)
  have hearly : settlePriceMarket Sample.config (Sample.hermes Sample.falling) Sample.market
      1700001001 = .ok (.observed (Sample.update 6601000000 1700001001 1700000999) 0) := by
    decide +kernel
  have hlate : settlePriceMarket Sample.config (Sample.hermes Sample.falling) Sample.market
      1700001060 = .ok (.observed (Sample.update 6599000000 1700001002 1700001001) 1) := by
    decide +kernel
  obtain ⟨-, -, ho⟩ := hall _ _ _ _ _ _ Sample.falling_history hserves (by decide) (by decide) _ _ _
    _ hearly hlate
  cases ho

theorem probe_complete_sample :
    (∃ u o, settlePriceMarket Sample.config (Sample.hermes Sample.falling) Sample.market 1700001200 =
      .ok (.observed u o)) ∧
    ∀ w ∈ Sample.falling.take 1, ¬ InWindow 1700001000 w := by
  have hserves : Serves (Sample.hermes Sample.falling) Sample.falling
      (min Sample.market.referenceTs 1700001200) :=
    Sample.hermes_serves List.mem_cons_self (by decide)
  have hgap : Serves (Sample.hermes (Sample.falling.take 1)) (Sample.falling.take 1)
      (min Sample.market.referenceTs 1700001200) :=
    Sample.hermes_serves List.mem_cons_self (by decide)
  obtain ⟨-, hselects, -⟩ : _ ∧ (OnHermes Sample.config _ → _) ∧ _ :=
    probe_complete Sample.falling_history.ordered hserves
  obtain ⟨hunresolvable, -⟩ : (settlePriceMarket Sample.config _ _ _ = _ → _) ∧ _ :=
    probe_complete (by decide) hgap
  exact ⟨hselects ⟨by decide, rfl⟩ (by decide) ⟨_, List.mem_cons_of_mem _ List.mem_cons_self,
    by decide, by decide⟩, (hunresolvable (by decide +kernel)).2⟩

end Stoppage.Keeper

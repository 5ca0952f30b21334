import Mathlib.Data.Rat.Floor
import Mathlib.Tactic
import Stoppage.Lib.Histogram

/-! # `packages/quant/src/pricing.ts`: the calibration backtest over exact rationals

The loop adds up three things: the squared errors, the losses, and the points of each bucket. The
losses go through `Math.log`, which the language leaves to the implementation, so it is a parameter.
-/

namespace Stoppage.Quant
open Histogram
set_option autoImplicit false

structure CalibrationPoint where
  p : ℚ
  outcome : Bool
deriving DecidableEq

structure CalibrationBucket where
  lo : ℚ
  hi : ℚ
  predicted : ℚ
  actual : ℚ
  count : ℕ
deriving DecidableEq

structure CalibrationReport where
  brier : ℚ
  logLoss : ℚ
  buckets : List CalibrationBucket
  n : ℕ
deriving DecidableEq

/-! ## The loop -/

/-- `CALIBRATION_BUCKETS` -/
def calibrationBuckets : ℕ := 10

/-- `o` -/
def CalibrationPoint.o (point : CalibrationPoint) : ℚ := if point.outcome then 1 else 0

/-- `(p - o) ** 2` -/
def CalibrationPoint.error (point : CalibrationPoint) : ℚ := (point.p - point.o) ^ 2

def CalibrationPoint.pc (point : CalibrationPoint) : ℚ :=
  min (max point.p (1 / 10 ^ 12)) (1 - 1 / 10 ^ 12)

def CalibrationPoint.loss (log : ℚ → ℚ) (point : CalibrationPoint) : ℚ :=
  -(point.o * log point.pc + (1 - point.o) * log (1 - point.pc))

/-- `idx` -/
def CalibrationPoint.idx (point : CalibrationPoint) : ℕ :=
  (min ((calibrationBuckets : ℤ) - 1) (max 0 ⌊point.p * calibrationBuckets⌋)).toNat

def emptyBucket (b : ℕ) : CalibrationBucket where
  lo := b / calibrationBuckets
  hi := (b + 1) / calibrationBuckets
  predicted := 0
  actual := 0
  count := 0

/-- The three lines on `buckets[idx]`. -/
def CalibrationBucket.add (point : CalibrationPoint) (b : CalibrationBucket) : CalibrationBucket :=
  { b with
    count := b.count + 1
    predicted := b.predicted + point.p
    actual := b.actual + point.o }

/-- The second loop over the buckets. -/
def CalibrationBucket.average (b : CalibrationBucket) : CalibrationBucket :=
  { b with
    predicted := if b.count ≠ 0 then b.predicted / b.count else 0
    actual := if b.count ≠ 0 then b.actual / b.count else 0 }

/-- What the loop over the points carries along. -/
structure Sums where
  brier : ℚ
  logLoss : ℚ
  buckets : List CalibrationBucket

def Sums.add (log : ℚ → ℚ) (sums : Sums) (point : CalibrationPoint) : Sums where
  brier := sums.brier + point.error
  logLoss := sums.logLoss + point.loss log
  buckets := sums.buckets.modify point.idx (CalibrationBucket.add point)

def backtest (log : ℚ → ℚ) (points : List CalibrationPoint) : CalibrationReport :=
  let n := points.length
  if n = 0 then { brier := 0, logLoss := 0, buckets := [], n := 0 }
  else
    let buckets := (List.range calibrationBuckets).map emptyBucket
    let sums := points.foldl (Sums.add log) { brier := 0, logLoss := 0, buckets }
    { brier := sums.brier / n
      logLoss := sums.logLoss / n
      buckets := sums.buckets.map CalibrationBucket.average
      n }

/-! ## The sums apart -/

theorem foldl_add (log : ℚ → ℚ) (points : List CalibrationPoint) (sums : Sums) :
    points.foldl (Sums.add log) sums =
      { brier := sums.brier + (points.map CalibrationPoint.error).sum
        logLoss := sums.logLoss + (points.map (CalibrationPoint.loss log)).sum
        buckets := tally CalibrationPoint.idx CalibrationBucket.add points sums.buckets } := by
  induction points generalizing sums with
  | nil => simp [tally]
  | cons point points ih =>
    rw [List.foldl_cons, ih]
    simp only [Sums.add, List.map_cons, List.sum_cons, add_assoc]
    rfl

theorem foldl_bucket (points : List CalibrationPoint) (b : CalibrationBucket) :
    points.foldl (fun b point => b.add point) b =
      { b with
        predicted := b.predicted + (points.map CalibrationPoint.p).sum
        actual := b.actual + (points.map CalibrationPoint.o).sum
        count := b.count + points.length } := by
  induction points generalizing b with
  | nil => simp
  | cons point points ih =>
    rw [List.foldl_cons, ih]
    simp only [CalibrationBucket.add, List.map_cons, List.sum_cons, List.length_cons, add_assoc,
      add_comm 1]

/-- What a bucket reports about the points that it got. -/
def bucketOf (j : ℕ) (points : List CalibrationPoint) : CalibrationBucket where
  lo := j / calibrationBuckets
  hi := (j + 1) / calibrationBuckets
  predicted := (points.map CalibrationPoint.p).sum / points.length
  actual := (points.map CalibrationPoint.o).sum / points.length
  count := points.length

theorem average_emptyBucket (j : ℕ) (points : List CalibrationPoint) :
    (points.foldl (fun b point => b.add point) (emptyBucket j)).average = bucketOf j points := by
  rw [foldl_bucket, CalibrationBucket.average, bucketOf, emptyBucket]
  rcases points with _ | ⟨point, points⟩ <;> simp

def bucketsOf (points : List CalibrationPoint) : List CalibrationBucket :=
  (List.range calibrationBuckets).map fun j => bucketOf j (bin CalibrationPoint.idx j points)

theorem backtest_eq (log : ℚ → ℚ) {points : List CalibrationPoint} (h : points ≠ []) :
    backtest log points =
      { brier := (points.map CalibrationPoint.error).sum / points.length
        logLoss := (points.map (CalibrationPoint.loss log)).sum / points.length
        buckets := bucketsOf points
        n := points.length } := by
  have hlen : points.length ≠ 0 := fun hzero => h (List.eq_nil_of_length_eq_zero hzero)
  have hbuckets : (tally CalibrationPoint.idx CalibrationBucket.add points
      ((List.range calibrationBuckets).map emptyBucket)).map CalibrationBucket.average =
        bucketsOf points := by
    rw [tally_range, List.map_map, bucketsOf]
    apply List.map_congr_left
    intro j _
    exact average_emptyBucket j _
  simp only [backtest, if_neg hlen, foldl_add, zero_add, hbuckets]

/-! ## The range of a bucket -/

/-- The range of a bucket, which is closed above for the last one only. -/
def CalibrationBucket.Covers (b : CalibrationBucket) (p : ℚ) : Prop :=
  b.lo ≤ p ∧ (p < b.hi ∨ b.hi = 1 ∧ p = 1)

instance (b : CalibrationBucket) (p : ℚ) : Decidable (b.Covers p) :=
  inferInstanceAs (Decidable (_ ∧ _))

theorem idx_lt (point : CalibrationPoint) : point.idx < calibrationBuckets := by
  rw [CalibrationPoint.idx, calibrationBuckets]
  omega

section Range
variable {point : CalibrationPoint}

/-- The bucket that the index names is the one whose range the prediction is in; the edges of the
buckets go up, and a prediction of one goes down to the last bucket. -/
theorem idx_eq_iff (hlow : 0 ≤ point.p) (hhigh : point.p ≤ 1) {j : ℕ} (hj : j < calibrationBuckets)
    (points : List CalibrationPoint) : point.idx = j ↔ (bucketOf j points).Covers point.p := by
  have hlo : (j : ℚ) / 10 ≤ point.p ↔ (j : ℤ) ≤ ⌊point.p * 10⌋ := by
    rw [Int.le_floor, div_le_iff₀ (by norm_num)]
    norm_cast
  have hhi : point.p < ((j : ℚ) + 1) / 10 ↔ ⌊point.p * 10⌋ < (j : ℤ) + 1 := by
    rw [Int.floor_lt, lt_div_iff₀ (by norm_num)]
    norm_cast
  have hlast : ((j : ℚ) + 1) / 10 = 1 ↔ j = 9 := by
    rw [div_eq_one_iff_eq (by norm_num)]
    norm_cast
    omega
  have hone : point.p = 1 ↔ 10 ≤ ⌊point.p * 10⌋ := by
    rw [Int.le_floor]
    push_cast
    constructor
    · intro h
      linarith
    · intro h
      linarith
  have hnonneg : 0 ≤ ⌊point.p * 10⌋ := Int.floor_nonneg.mpr (by linarith)
  rw [calibrationBuckets] at hj
  rw [CalibrationBucket.Covers, bucketOf, CalibrationPoint.idx, calibrationBuckets]
  push_cast
  rw [hlo, hhi, hlast, hone]
  omega

theorem error_nonneg : 0 ≤ point.error := sq_nonneg _

theorem error_le_one (hlow : 0 ≤ point.p) (hhigh : point.p ≤ 1) : point.error ≤ 1 := by
  rw [CalibrationPoint.error, sq_le_one_iff_abs_le_one, abs_le, CalibrationPoint.o]
  split <;> constructor <;> linarith

end Range

/-! ## The buckets balance -/

section Bucket
variable (j : ℕ) (points : List CalibrationPoint)

theorem length_mul_mean (xs : List ℚ) {n : ℕ} (h : xs.length = n) : n * (xs.sum / n) = xs.sum := by
  subst h
  rcases xs with _ | ⟨x, xs⟩
  · simp
  · have hlen : ((x :: xs).length : ℚ) ≠ 0 := by
      rw [List.length_cons]
      positivity
    exact mul_div_cancel₀ _ hlen

theorem count_mul_predicted : (bucketOf j points).count * (bucketOf j points).predicted =
    (points.map CalibrationPoint.p).sum := length_mul_mean _ (List.length_map _)

theorem count_mul_actual : (bucketOf j points).count * (bucketOf j points).actual =
    (points.map CalibrationPoint.o).sum := length_mul_mean _ (List.length_map _)

theorem sum_o : (points.map CalibrationPoint.o).sum = points.countP CalibrationPoint.outcome := by
  induction points with
  | nil => simp
  | cons point points ih =>
    rw [List.map_cons, List.sum_cons, ih, CalibrationPoint.o, List.countP_cons]
    cases point.outcome <;> simp [add_comm]

theorem bucketOf_perm {points' : List CalibrationPoint} (h : points.Perm points') :
    bucketOf j points = bucketOf j points' := by
  rw [bucketOf, bucketOf, h.length_eq, (h.map _).sum_eq, (h.map _).sum_eq]

end Bucket

theorem getElem?_bucketsOf {points : List CalibrationPoint} {j : ℕ} {b : CalibrationBucket} :
    (bucketsOf points)[j]? = some b ↔
      j < calibrationBuckets ∧ bucketOf j (bin CalibrationPoint.idx j points) = b := by
  rw [bucketsOf, List.getElem?_map]
  by_cases hj : j < calibrationBuckets
  · rw [List.getElem?_range hj, Option.map_some, Option.some_inj, and_iff_right hj]
  · rw [List.getElem?_eq_none (by rw [List.length_range]; omega), Option.map_none]
    simp [hj]

theorem sum_bucketsOf (f : CalibrationBucket → ℚ) (g : CalibrationPoint → ℚ)
    (h : ∀ j points, f (bucketOf j points) = (points.map g).sum) (points : List CalibrationPoint) :
    ((bucketsOf points).map f).sum = (points.map g).sum := by
  rw [bucketsOf, List.map_map, ← sum_bins CalibrationPoint.idx g fun x _ => idx_lt x]
  refine congrArg List.sum (List.map_congr_left fun j _ => ?_)
  exact h j _

theorem sum_count (points : List CalibrationPoint) :
    ((bucketsOf points).map CalibrationBucket.count).sum = points.length := by
  have hin : ∀ x ∈ points, x.idx < calibrationBuckets := fun x _ => idx_lt x
  have hbins := sum_bins CalibrationPoint.idx (fun _ => 1) hin
  rw [bucketsOf, List.map_map]
  simpa [bucketOf, Function.comp_def] using hbins

theorem backtest_perm (log : ℚ → ℚ) {points points' : List CalibrationPoint}
    (h : points.Perm points') : backtest log points = backtest log points' := by
  by_cases hnil : points = []
  · subst hnil
    rw [h.nil_eq]
  · have hnil' : points' ≠ [] := fun hzero => hnil (hzero ▸ h).eq_nil
    have hbuckets : bucketsOf points = bucketsOf points' := by
      refine List.map_congr_left fun j _ => ?_
      exact bucketOf_perm j _ (perm_bin _ h j)
    rw [backtest_eq log hnil, backtest_eq log hnil', hbuckets, h.length_eq, (h.map _).sum_eq,
      (h.map _).sum_eq]

/-! ## The report -/

/-- The points that a bucket covers. -/
def CalibrationBucket.inside (b : CalibrationBucket) (points : List CalibrationPoint) :
    List CalibrationPoint :=
  points.filter fun x => b.Covers x.p

section Report
variable {points : List CalibrationPoint} (hpoints : ∀ x ∈ points, 0 ≤ x.p ∧ x.p ≤ 1)
include hpoints

theorem bin_eq_inside {j : ℕ} (hj : j < calibrationBuckets) (xs : List CalibrationPoint) :
    bin CalibrationPoint.idx j points = (bucketOf j xs).inside points := by
  apply List.filter_congr
  intro x hx
  obtain ⟨hlow, hhigh⟩ := hpoints x hx
  rw [Bool.eq_iff_iff, beq_iff_eq, decide_eq_true_iff]
  exact idx_eq_iff hlow hhigh hj xs

theorem brier_mem (log : ℚ → ℚ) : 0 ≤ (backtest log points).brier ∧ (backtest log points).brier ≤ 1 := by
  by_cases hnil : points = []
  · subst hnil
    exact ⟨le_rfl, zero_le_one⟩
  · have hlen : (0 : ℚ) < points.length := by
      exact_mod_cast List.length_pos_of_ne_nil hnil
    have hnonneg : 0 ≤ (points.map CalibrationPoint.error).sum := by
      apply List.sum_nonneg
      intro e he
      obtain ⟨x, -, rfl⟩ := List.mem_map.mp he
      exact error_nonneg
    have hle := List.sum_le_card_nsmul (points.map CalibrationPoint.error) 1 (by
      intro e he
      obtain ⟨x, hx, rfl⟩ := List.mem_map.mp he
      exact error_le_one (hpoints x hx).1 (hpoints x hx).2)
    rw [List.length_map, nsmul_one] at hle
    rw [backtest_eq log hnil]
    exact ⟨div_nonneg hnonneg hlen.le, (div_le_one hlen).mpr hle⟩

/-- **The calibration report accounts for every point.** One bucket covers each prediction, and the
buckets count the points that they cover and average over them. -/
theorem backtest_accounts (log : ℚ → ℚ) :
    (∀ x ∈ points, ∃! j : ℕ, ∃ b : CalibrationBucket,
      (backtest log points).buckets[j]? = some b ∧ b.Covers x.p) ∧
    (∀ b ∈ (backtest log points).buckets, b.count = (b.inside points).length ∧
      (b.count : ℚ) * b.predicted = ((b.inside points).map CalibrationPoint.p).sum ∧
      (b.count : ℚ) * b.actual = (b.inside points).countP CalibrationPoint.outcome) ∧
    (backtest log points).n = points.length ∧
    ((backtest log points).buckets.map CalibrationBucket.count).sum = points.length ∧
    ((backtest log points).buckets.map fun b => (b.count : ℚ) * b.predicted).sum =
      (points.map CalibrationPoint.p).sum ∧
    ((backtest log points).buckets.map fun b => (b.count : ℚ) * b.actual).sum =
      points.countP CalibrationPoint.outcome ∧
    (0 ≤ (backtest log points).brier ∧ (backtest log points).brier ≤ 1) ∧
    ∀ points', points.Perm points' → (backtest log points').brier = (backtest log points).brier ∧
      (backtest log points').buckets = (backtest log points).buckets := by
  have hbrier := brier_mem hpoints log
  have hperm : ∀ points', points.Perm points' →
      (backtest log points').brier = (backtest log points).brier ∧
        (backtest log points').buckets = (backtest log points).buckets := by
    intro points' h
    rw [backtest_perm log h]
    exact ⟨rfl, rfl⟩
  by_cases hnil : points = []
  · subst hnil
    refine ⟨by simp, by simp [backtest], rfl, rfl, rfl, rfl, hbrier, hperm⟩
  have hbuckets : (backtest log points).buckets = bucketsOf points := by rw [backtest_eq log hnil]
  refine ⟨?_, ?_, ?_, ?_, ?_, ?_, hbrier, hperm⟩
  · intro x hx
    obtain ⟨hlow, hhigh⟩ := hpoints x hx
    rw [hbuckets]
    refine ⟨x.idx, ⟨_, getElem?_bucketsOf.mpr ⟨idx_lt x, rfl⟩, ?_⟩, ?_⟩
    · exact (idx_eq_iff hlow hhigh (idx_lt x) _).mp rfl
    · rintro j ⟨b, hb, hcovers⟩
      obtain ⟨hj, rfl⟩ := getElem?_bucketsOf.mp hb
      exact ((idx_eq_iff hlow hhigh hj _).mpr hcovers).symm
  · intro b hb
    rw [hbuckets] at hb
    obtain ⟨j, hj, rfl⟩ := List.mem_map.mp hb
    rw [← bin_eq_inside hpoints (List.mem_range.mp hj), ← sum_o]
    exact ⟨rfl, count_mul_predicted j _, count_mul_actual j _⟩
  · rw [backtest_eq log hnil]
  · rw [hbuckets, sum_count]
  · rw [hbuckets, sum_bucketsOf _ _ count_mul_predicted]
  · rw [hbuckets, sum_bucketsOf _ _ count_mul_actual, sum_o]

end Report

/-- Both ends of the interval and an edge between two buckets. -/
def edgePoints : List CalibrationPoint := [⟨0, false⟩, ⟨1 / 10, true⟩, ⟨1, true⟩]

theorem backtest_accounts_at_edges :
    ((backtest (fun _ => 0) edgePoints).buckets.map CalibrationBucket.count).sum = 3 ∧
    ∃! j : ℕ, ∃ b : CalibrationBucket,
      (backtest (fun _ => 0) edgePoints).buckets[j]? = some b ∧ b.Covers (1 / 10) := by
  have hpoints : ∀ x ∈ edgePoints, 0 ≤ x.p ∧ x.p ≤ 1 := by
    simp only [edgePoints, List.mem_cons, List.not_mem_nil, or_false]
    rintro x (rfl | rfl | rfl) <;> norm_num
  obtain ⟨hcovered, -, -, hcount, -⟩ := backtest_accounts hpoints fun _ => 0
  exact ⟨hcount, hcovered ⟨1 / 10, true⟩ (by simp [edgePoints])⟩

example : (backtest (fun _ => 0) edgePoints).buckets.map CalibrationBucket.count =
    [1, 1, 0, 0, 0, 0, 0, 0, 0, 1] := by decide +kernel

end Stoppage.Quant

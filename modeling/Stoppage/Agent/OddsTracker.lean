import Stoppage.Lib.OrderedMap
import Stoppage.Lib.Throttle

/-! # `apps/agent/src/oddsTracker.ts`: sharp movements

A timestamp is a number of milliseconds as `Date.now()` gives it, an integer. Pools and
probabilities are rationals, and what the machine makes of a sum, a difference or a quotient is a
parameter.
-/

namespace Stoppage.Odds
open Throttle
set_option autoImplicit false

structure OddsPoint where
  ts : ℤ
  yes : ℚ
deriving DecidableEq

inductive Direction where
  | up
  | down
deriving DecidableEq

structure OddsShift where
  marketId : String
  label : String
  fromTs : ℤ
  toTs : ℤ
  fromYes : ℚ
  toYes : ℚ
  delta : ℚ
  direction : Direction
deriving DecidableEq

/-- `MAX_POINTS` -/
def maxPoints : ℕ := 240

/-- `LOOKBACK_MS` -/
def lookbackMs : ℤ := 60000

/-- `SHIFT_THRESHOLD`, the double next to 0.05. -/
def shiftThreshold : ℚ := 3602879701896397 / 2 ^ 56

def maxShifts : ℕ := 40

structure OddsTracker where
  history : OrderedMap String (List OddsPoint)
  labels : OrderedMap String String
  /-- Newest first. -/
  shifts : List OddsShift
  lastShiftAt : OrderedMap String ℤ

def OddsTracker.empty : OddsTracker := ⟨.empty, .empty, [], .empty⟩

/-- The arguments of a call of `record`. -/
structure Snapshot where
  marketId : String
  label : String
  yesPool : ℚ
  noPool : ℚ
  ts : ℤ

namespace OddsTracker

def getHistory (t : OddsTracker) (marketId : String) : List OddsPoint :=
  (t.history.get marketId).getD []

/-- `this.lastShiftAt.get(marketId) ?? 0` -/
def lastShift (t : OddsTracker) (marketId : String) : ℤ := (t.lastShiftAt.get marketId).getD 0

/-- `last && ts - last.ts < 1000` -/
def TooSoon (buf : List OddsPoint) (ts : ℤ) : Prop :=
  ∃ last, buf.getLast? = some last ∧ ts - last.ts < 1000

instance (buf : List OddsPoint) (ts : ℤ) : Decidable (TooSoon buf ts) :=
  decidable_of_iff (∃ last ∈ buf.getLast?, ts - last.ts < 1000) Iff.rfl

variable (round : ℚ → ℚ)

/-- The first half of `record`: the tracker, and the buffer to look at unless the snapshot is
skipped. -/
def store (t : OddsTracker) (c : Snapshot) : OddsTracker × Option (List OddsPoint) :=
  let total := round (c.yesPool + c.noPool)
  if total ≤ 0 then (t, none)
  else
    let yes := round (c.yesPool / total)
    let t := { t with labels := t.labels.set c.marketId c.label }
    let buf := t.getHistory c.marketId
    if TooSoon buf c.ts then (t, none)
    else
      let buf := capped maxPoints (buf ++ [⟨c.ts, yes⟩])
      ({ t with history := t.history.set c.marketId buf }, some buf)

/-- What `detectShift` finds in a buffer: the shift that it records, if any. -/
def shiftOf (t : OddsTracker) (marketId label : String) (buf : List OddsPoint) : Option OddsShift :=
  match buf.head?, buf.getLast? with
  | some first, some now =>
    let windowStart := now.ts - lookbackMs
    let base := (buf.find? fun p => windowStart ≤ p.ts).getD first
    let delta := round (now.yes - base.yes)
    if buf.length < 2 ∨ |delta| < shiftThreshold ∨ now.ts - t.lastShift marketId < lookbackMs then
      none
    else
      some
        { marketId
          label
          fromTs := base.ts
          toTs := now.ts
          fromYes := base.yes
          toYes := now.yes
          delta
          direction := if 0 ≤ delta then .up else .down }
  | _, _ => none

/-- The end of `detectShift`. -/
def recordShift (t : OddsTracker) (shift : OddsShift) : OddsTracker :=
  let shifts := shift :: t.shifts
  { t with
    lastShiftAt := t.lastShiftAt.set shift.marketId shift.toTs
    shifts := if maxShifts < shifts.length then shifts.dropLast else shifts }

/-- The shift that a call of `record` records, if any. -/
def shiftAt (t : OddsTracker) (c : Snapshot) : Option OddsShift :=
  let (t', buf) := t.store round c
  buf.bind (t'.shiftOf round c.marketId c.label)

def record (t : OddsTracker) (c : Snapshot) : OddsTracker :=
  let t' := (t.store round c).1
  match t.shiftAt round c with
  | none => t'
  | some shift => t'.recordShift shift

def run (t : OddsTracker) (cs : List Snapshot) : OddsTracker := cs.foldl (record round) t

/-- All shifts that a sequence of calls records, oldest first. -/
def recorded : OddsTracker → List Snapshot → List OddsShift
  | _, [] => []
  | t, c :: cs => (t.shiftAt round c).toList ++ recorded (t.record round c) cs

/-! ## What a call does -/

/-- What the first half of `record` leaves: a skipped snapshot changes a label at most, and a stored
one is the last point of its market. -/
inductive Stored (t : OddsTracker) (c : Snapshot) : OddsTracker × Option (List OddsPoint) → Prop
  | skipped {t' : OddsTracker} : t'.history = t.history → t'.shifts = t.shifts →
      t'.lastShiftAt = t.lastShiftAt → Stored t c (t', none)
  | kept {t' : OddsTracker} {buf : List OddsPoint} (yes : ℚ) :
      ¬ TooSoon (t.getHistory c.marketId) c.ts →
      buf = capped maxPoints (t.getHistory c.marketId ++ [⟨c.ts, yes⟩]) →
      t'.history = t.history.set c.marketId buf → t'.shifts = t.shifts →
      t'.lastShiftAt = t.lastShiftAt → Stored t c (t', some buf)

theorem stored (t : OddsTracker) (c : Snapshot) : Stored t c (t.store round c) := by
  unfold store
  dsimp only
  split
  · exact .skipped rfl rfl rfl
  · split
    · exact .skipped rfl rfl rfl
    · rename_i hlate
      exact .kept _ hlate rfl rfl rfl rfl

/-- The shift is one between two points of the buffer that is not older than the lookback. -/
structure Moved (round : ℚ → ℚ) (t : OddsTracker) (marketId : String) (buf : List OddsPoint)
    (shift : OddsShift) : Prop where
  market : shift.marketId = marketId
  last : buf.getLast? = some ⟨shift.toTs, shift.toYes⟩
  base : ⟨shift.fromTs, shift.fromYes⟩ ∈ buf
  recent : shift.toTs - lookbackMs ≤ shift.fromTs
  delta : shift.delta = round (shift.toYes - shift.fromYes)
  large : shiftThreshold ≤ |shift.delta|
  cooled : t.lastShift marketId + lookbackMs ≤ shift.toTs

variable {round} in
theorem moved_of_shiftOf {t : OddsTracker} {marketId label : String} {buf : List OddsPoint}
    {shift : OddsShift} (h : t.shiftOf round marketId label buf = some shift) :
    Moved round t marketId buf shift := by
  unfold shiftOf at h
  split at h
  case h_2 => cases h
  case h_1 first now hfirst hnow =>
    -- The last point is in the window, so the search for the oldest one there succeeds.
    have hsome : (buf.find? fun p => now.ts - lookbackMs ≤ p.ts).isSome := by
      rw [List.find?_isSome]
      refine ⟨now, List.mem_of_getLast? hnow, decide_eq_true ?_⟩
      rw [lookbackMs]
      omega
    obtain ⟨base, hbase⟩ := Option.isSome_iff_exists.mp hsome
    have hrecent := List.find?_some hbase
    rw [decide_eq_true_iff] at hrecent
    simp only [hbase, Option.getD_some] at h
    split at h
    case isTrue => cases h
    case isFalse hguard =>
      cases h
      simp only [not_or, not_lt] at hguard
      obtain ⟨-, hlarge, hcooled⟩ := hguard
      exact
        { market := rfl
          last := hnow
          base := List.mem_of_find?_eq_some hbase
          recent := hrecent
          delta := rfl
          large := hlarge
          cooled := by linarith }

/-! ## One call -/

section Call
variable (t : OddsTracker) (c : Snapshot)

theorem history_record : (t.record round c).history = (t.store round c).1.history := by
  unfold record
  dsimp only
  split <;> rfl

/-- A call leaves the points of a market as they are, or puts one behind them. -/
theorem getHistory_record (id : String) :
    (t.record round c).getHistory id = t.getHistory id ∨
    (id = c.marketId ∧ ¬ TooSoon (t.getHistory id) c.ts ∧ ∃ yes,
      (t.record round c).getHistory id = capped maxPoints (t.getHistory id ++ [⟨c.ts, yes⟩])) := by
  have h := stored round t c
  rw [getHistory, history_record]
  generalize t.store round c = result at h ⊢
  cases h with
  | skipped hhistory => exact Or.inl (by rw [hhistory, getHistory])
  | kept yes hlate hbuf hhistory =>
    by_cases hid : id = c.marketId
    · subst hid
      exact Or.inr ⟨rfl, hlate, yes, by rw [hhistory, OrderedMap.get_set_self, Option.getD_some, hbuf]⟩
    · exact Or.inl (by rw [hhistory, OrderedMap.get_set_of_ne hid, getHistory])

variable {round} in
/-- A recorded shift ends with the point of the call, and starts the cooldown of its market. -/
theorem moved_of_shiftAt {t : OddsTracker} {c : Snapshot} {shift : OddsShift}
    (h : t.shiftAt round c = some shift) :
    Moved round t c.marketId ((t.record round c).getHistory c.marketId) shift ∧
      shift.toTs = c.ts := by
  have hstored := stored round t c
  have hhistory := history_record round t c
  unfold shiftAt at h
  generalize t.store round c = result at h hstored hhistory
  cases hstored with
  | skipped => cases h
  | kept yes hlate hbuf hset hshifts hlast =>
    have hmoved := moved_of_shiftOf h
    have hget : (t.record round c).getHistory c.marketId = capped maxPoints
        (t.getHistory c.marketId ++ [⟨c.ts, yes⟩]) := by
      rw [getHistory, hhistory, hset, OrderedMap.get_set_self, Option.getD_some, hbuf]
    have hend := hmoved.last
    rw [hbuf, getLast?_capped (by decide), List.getLast?_concat, Option.some_inj] at hend
    have hcooled := hmoved.cooled
    rw [lastShift, hlast] at hcooled
    refine ⟨?_, (congrArg OddsPoint.ts hend).symm⟩
    rw [hget, ← hbuf]
    exact { hmoved with cooled := hcooled }

theorem lastShift_store (id : String) : (t.store round c).1.lastShift id = t.lastShift id := by
  have h := stored round t c
  generalize t.store round c = result at h ⊢
  cases h with
  | skipped _ _ hlast => rw [lastShift, hlast, lastShift]
  | kept _ _ _ _ _ hlast => rw [lastShift, hlast, lastShift]

theorem shifts_store : (t.store round c).1.shifts = t.shifts := by
  have h := stored round t c
  generalize t.store round c = result at h ⊢
  cases h with
  | skipped _ hshifts => exact hshifts
  | kept _ _ _ _ hshifts => exact hshifts

variable {round t c}

theorem record_of_none (h : t.shiftAt round c = none) :
    t.record round c = (t.store round c).1 := by
  rw [record, h]

theorem record_of_some {shift : OddsShift} (h : t.shiftAt round c = some shift) :
    t.record round c = (t.store round c).1.recordShift shift := by
  rw [record, h]

theorem lastShift_of_some {shift : OddsShift} (h : t.shiftAt round c = some shift) (id : String) :
    (t.record round c).lastShift id = if id = shift.marketId then shift.toTs else t.lastShift id := by
  rw [record_of_some h, ← lastShift_store round t c id, lastShift, recordShift]
  by_cases hid : id = shift.marketId
  · rw [if_pos hid, hid, OrderedMap.get_set_self, Option.getD_some]
  · rw [if_neg hid, OrderedMap.get_set_of_ne hid, lastShift]

end Call

/-! ## Runs -/

variable {round}

def AllSpaced (t : OddsTracker) : Prop := ∀ id, Spaced OddsPoint.ts 1000 (t.getHistory id)

theorem AllSpaced.concat {t : OddsTracker} (h : t.AllSpaced) {id : String} {ts : ℤ}
    (hlate : ¬ TooSoon (t.getHistory id) ts) (yes : ℚ) :
    Spaced OddsPoint.ts 1000 (t.getHistory id ++ [⟨ts, yes⟩]) := by
  refine (h id).concat (by norm_num) fun last hlast => ?_
  by_contra hsoon
  exact hlate ⟨last, hlast, by dsimp only at hsoon; omega⟩

theorem AllSpaced.record {t : OddsTracker} (h : t.AllSpaced) (c : Snapshot) :
    (t.record round c).AllSpaced := by
  intro id
  rcases getHistory_record round t c id with hsame | ⟨-, hlate, yes, hnew⟩
  · rw [hsame]
    exact h id
  · rw [hnew]
    exact (h.concat hlate yes).capped maxPoints

theorem AllSpaced.run {t : OddsTracker} (h : t.AllSpaced) (cs : List Snapshot) :
    (t.run round cs).AllSpaced := by
  induction cs generalizing t with
  | nil => exact h
  | cons c cs ih => exact ih (h.record c)

/-- What a call drops lies behind the lookback of that call. -/
theorem AllSpaced.dropped {t : OddsTracker} (h : t.AllSpaced) {c : Snapshot} {id : String}
    {p : OddsPoint} (hp : p ∈ t.getHistory id) (hdropped : p ∉ (t.record round c).getHistory id) :
    p.ts + lookbackMs < c.ts := by
  rcases getHistory_record round t c id with hsame | ⟨-, hlate, yes, hnew⟩
  · rw [hsame] at hdropped
    exact absurd hp hdropped
  · rw [hnew] at hdropped
    have hwindow : lookbackMs < maxPoints • (1000 : ℤ) := by decide
    exact (h.concat hlate yes).dropped (by norm_num) hwindow List.getLast?_concat
      (List.mem_append_left _ hp) hdropped

/-- The shifts of a market come after its cooldown, and each one starts the cooldown anew. -/
theorem recorded_spaced (t : OddsTracker) (cs : List Snapshot) (id : String) :
    Spaced OddsShift.toTs lookbackMs ((t.recorded round cs).filter fun s => s.marketId = id) ∧
    ∀ s ∈ (t.recorded round cs).filter fun s => s.marketId = id,
      t.lastShift id + lookbackMs ≤ s.toTs := by
  induction cs generalizing t with
  | nil => exact ⟨List.Pairwise.nil, by simp [recorded]⟩
  | cons c cs ih =>
    obtain ⟨hspaced, hcooled⟩ := ih (t.record round c)
    rw [recorded]
    cases hshift : t.shiftAt round c with
    | none =>
      rw [record_of_none hshift] at hspaced hcooled
      rw [lastShift_store] at hcooled
      rw [record_of_none hshift]
      exact ⟨hspaced, hcooled⟩
    | some shift =>
      have hmoved := (moved_of_shiftAt hshift).1
      have hlast := lastShift_of_some hshift id
      rw [Option.toList_some, List.singleton_append, List.filter_cons]
      by_cases hid : shift.marketId = id
      · have hfirst := hmoved.cooled
        rw [← hmoved.market, hid] at hfirst
        rw [if_pos hid.symm] at hlast
        rw [hlast] at hcooled
        rw [if_pos (decide_eq_true hid)]
        refine ⟨List.pairwise_cons.mpr ⟨hcooled, hspaced⟩, ?_⟩
        intro s hs
        rcases List.mem_cons.mp hs with rfl | hs
        · exact hfirst
        · have hnext := hcooled s hs
          have hpos : 0 ≤ lookbackMs := by decide
          omega
      · rw [if_neg (Ne.symm hid)] at hlast
        rw [hlast] at hcooled
        rw [if_neg (by simpa using hid)]
        exact ⟨hspaced, hcooled⟩

/-- Dropping the last of `cap + 1` entries leaves the newest `cap`. -/
theorem dropLast_cons_take {α : Type} (cap : ℕ) (x : α) (old : List α) :
    (if cap < (x :: old.take cap).length then (x :: old.take cap).dropLast
      else x :: old.take cap) = (x :: old).take cap := by
  rw [List.length_cons, List.length_take]
  split
  case isTrue hfull =>
    have hlen : (x :: old.take cap).length - 1 = cap := by
      rw [List.length_cons, List.length_take]
      omega
    rw [List.dropLast_eq_take, hlen]
    rcases cap with _ | n
    · rfl
    · rw [List.take_succ_cons, List.take_succ_cons, List.take_take, Nat.min_eq_left (by omega)]
  case isFalse hroom =>
    rw [List.take_of_length_le (by omega), List.take_of_length_le (by rw [List.length_cons]; omega)]

theorem shifts_record (t : OddsTracker) (c : Snapshot) {old : List OddsShift}
    (h : t.shifts = old.take maxShifts) :
    (t.record round c).shifts = ((t.shiftAt round c).toList ++ old).take maxShifts := by
  cases hshift : t.shiftAt round c with
  | none => rw [record_of_none hshift, shifts_store, h, Option.toList_none, List.nil_append]
  | some shift =>
    rw [record_of_some hshift, recordShift, Option.toList_some, List.singleton_append,
      ← dropLast_cons_take, shifts_store, h]

theorem shifts_run (t : OddsTracker) (cs : List Snapshot) {old : List OddsShift}
    (h : t.shifts = old.take maxShifts) :
    (t.run round cs).shifts = ((t.recorded round cs).reverse ++ old).take maxShifts := by
  induction cs generalizing t old with
  | nil => exact h
  | cons c cs ih =>
    have hone : (t.shiftAt round c).toList.reverse = (t.shiftAt round c).toList := by
      cases t.shiftAt round c <;> rfl
    rw [recorded, List.reverse_append, hone, List.append_assoc]
    exact ih _ (shifts_record t c h)

end OddsTracker

open OddsTracker

/-! ## The tracker -/

theorem getShifts_run (round : ℚ → ℚ) (calls : List Snapshot) :
    (run round .empty calls).shifts = (recorded round .empty calls).reverse.take maxShifts := by
  have hnil : OddsTracker.empty.shifts = [].take maxShifts := rfl
  have h : (run round .empty calls).shifts = _ := shifts_run .empty calls hnil
  rwa [List.append_nil] at h

/-- **The tracker over any sequence of calls**: its points are a second apart, its shifts a minute,
the forty newest of them are kept, a shift leads from a point within the lookback to the point that
was just stored and is as large as their probabilities are apart, and the cap drops no point that a
lookback can still reach. -/
theorem tracker_spaced (round : ℚ → ℚ) (calls : List Snapshot) :
    (∀ id, ((run round .empty calls).getHistory id).Pairwise fun p q => p.ts + 1000 ≤ q.ts) ∧
    (run round .empty calls).shifts = (recorded round .empty calls).reverse.take 40 ∧
    (∀ id, ((recorded round .empty calls).filter fun s => s.marketId = id).Pairwise fun s s' =>
      s.toTs + 60000 ≤ s'.toTs) ∧
    (∀ c shift, (run round .empty calls).shiftAt round c = some shift →
      shift.marketId = c.marketId ∧ shift.toTs = c.ts ∧
      (((run round .empty calls).record round c).getHistory c.marketId).getLast? =
        some ⟨shift.toTs, shift.toYes⟩ ∧
      shift.delta = round (shift.toYes - shift.fromYes) ∧ 1 / 20 ≤ |shift.delta| ∧
      ∃ p ∈ ((run round .empty calls).record round c).getHistory c.marketId,
        p.ts = shift.fromTs ∧ p.yes = shift.fromYes ∧ c.ts - 60000 ≤ p.ts ∧ p.ts ≤ c.ts) ∧
    ∀ c id, ∀ p ∈ (run round .empty calls).getHistory id,
      p ∉ ((run round .empty calls).record round c).getHistory id → p.ts < c.ts - 60000 := by
  have hempty : AllSpaced .empty := fun id => List.Pairwise.nil
  have hspaced : (run round .empty calls).AllSpaced := hempty.run calls
  refine ⟨hspaced, getShifts_run round calls, fun id => (recorded_spaced _ calls id).1, ?_, ?_⟩
  · intro c shift hshift
    obtain ⟨hmoved, hts⟩ := moved_of_shiftAt hshift
    have hthreshold : 1 / 20 ≤ shiftThreshold := by
      rw [shiftThreshold]
      norm_num
    have horder := (hspaced.record c c.marketId).le_getLast (by norm_num) hmoved.base hmoved.last
    have hrecent := hmoved.recent
    rw [hts, lookbackMs] at hrecent
    rw [hts] at horder
    exact ⟨hmoved.market, hts, hmoved.last, hmoved.delta, hthreshold.trans hmoved.large,
      ⟨_, hmoved.base, rfl, rfl, hrecent, horder⟩⟩
  · intro c id p hp hdropped
    have hold := hspaced.dropped hp hdropped
    rw [lookbackMs] at hold
    omega

/-- Half a minute apart, from one half to three quarters. -/
def opening : Snapshot := ⟨"market", "Goal", 1, 1, 100000⟩

def surge : Snapshot := ⟨"market", "Goal", 3, 1, 130000⟩

theorem tracker_spaced_at_surge : ∃ shift,
    (run id .empty [opening]).shiftAt id surge = some shift ∧ 1 / 20 ≤ |shift.delta| ∧
    ∃ p ∈ ((run id .empty [opening]).record id surge).getHistory "market",
      p.ts = shift.fromTs ∧ 70000 ≤ p.ts := by
  have hshift : ((run id .empty [opening]).shiftAt id surge).isSome := by decide +kernel
  obtain ⟨shift, hshift⟩ := Option.isSome_iff_exists.mp hshift
  obtain ⟨-, -, -, -, hlarge, p, hp, hts, -, hrecent, -⟩ :=
    (tracker_spaced id [opening]).2.2.2.1 surge shift hshift
  exact ⟨shift, hshift, hlarge, p, hp, hts, hrecent⟩

end Stoppage.Odds

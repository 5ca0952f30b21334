import Stoppage.Lib.LastWrite
import Stoppage.Lib.OrderedMap
import Stoppage.Lib.Throttle
import Stoppage.Quant.Model

/-! # `apps/agent/src/quoteTracker.ts`

The quotes of the agent, as the HTTP server reads them. What `broadcast` writes to the clients is in
the module on the page that shows them.
-/

namespace Stoppage.Quotes
open Escrow LastWrite
set_option autoImplicit false

structure QuotePoint where
  ts : ℤ
  fairValue : ℚ
  bid : ℚ
  ask : ℚ
  inventorySkew : ℚ
deriving DecidableEq

structure MarketQuote where
  marketId : JsString
  label : JsString
  predicateKind : JsString
  snapshot : Quant.PricingSnapshot ℚ
  result : Quant.PricingResult
  inventorySkew : ℚ
  ts : ℤ
deriving DecidableEq

def MarketQuote.point (q : MarketQuote) : QuotePoint where
  ts := q.ts
  fairValue := q.result.fairValue
  bid := q.result.bid
  ask := q.result.ask
  inventorySkew := q.inventorySkew

def maxPoints : ℕ := 240
def maxQuotes : ℕ := 40

structure QuoteTracker where
  history : OrderedMap JsString (List QuotePoint)
  latest : OrderedMap JsString MarketQuote
  labels : OrderedMap JsString JsString
  keyed : ∀ e ∈ latest.entries, e.2.marketId = e.1

namespace QuoteTracker

def empty : QuoteTracker where
  history := .empty
  latest := .empty
  labels := .empty
  keyed := by
    intro e he
    cases he

def getLatest (t : QuoteTracker) (marketId : JsString) : Option MarketQuote :=
  t.latest.get marketId

def getHistory (t : QuoteTracker) (marketId : JsString) : List QuotePoint :=
  (t.history.get marketId).getD []

def getLabel (t : QuoteTracker) (marketId : JsString) : Option JsString := t.labels.get marketId

theorem keyed_set (t : QuoteTracker) (q : MarketQuote) :
    ∀ e ∈ (t.latest.set q.marketId q).entries, e.2.marketId = e.1 := by
  intro e he
  have hget := OrderedMap.get_eq_some_iff.mpr he
  by_cases hkey : e.1 = q.marketId
  · rw [hkey, OrderedMap.get_set_self, Option.some_inj] at hget
    rw [← hget, hkey]
  · rw [OrderedMap.get_set_of_ne hkey] at hget
    exact t.keyed e (OrderedMap.get_eq_some_iff.mp hget)

/-- `record`, up to its `broadcast`. -/
def record (t : QuoteTracker) (q : MarketQuote) : QuoteTracker where
  latest := t.latest.set q.marketId q
  labels := t.labels.set q.marketId q.label
  history := t.history.set q.marketId
    (Throttle.capped maxPoints (t.getHistory q.marketId ++ [q.point]))
  keyed := t.keyed_set q

end QuoteTracker

/-- `sort((a, b) => b.ts - a.ts)` -/
def byTime (quotes : List MarketQuote) : List MarketQuote :=
  quotes.mergeSort fun a b => decide (b.ts ≤ a.ts)

def QuoteTracker.getAllLatest (t : QuoteTracker) : List MarketQuote :=
  (byTime (t.latest.entries.map Prod.snd)).take maxQuotes

/-- Newest first. -/
def Falling (quotes : List MarketQuote) : Prop := quotes.Pairwise fun a b => b.ts ≤ a.ts

theorem byTime_perm (quotes : List MarketQuote) : (byTime quotes).Perm quotes :=
  List.mergeSort_perm _ _

theorem falling_byTime (quotes : List MarketQuote) : Falling (byTime quotes) := by
  refine (List.pairwise_mergeSort ?_ ?_ quotes).imp fun h => of_decide_eq_true h
  · intro a b c hab hbc
    exact decide_eq_true ((of_decide_eq_true hbc).trans (of_decide_eq_true hab))
  · intro a b
    rw [Bool.or_eq_true, decide_eq_true_iff, decide_eq_true_iff]
    exact le_total _ _

namespace QuoteTracker
variable {t : QuoteTracker} {q : MarketQuote} {m : JsString}

theorem getLatest_record : (t.record q).getLatest m =
    if q.marketId = m then some q else t.getLatest m := by
  rw [getLatest, record]
  split_ifs with hm
  · rw [← hm, OrderedMap.get_set_self]
  · rw [OrderedMap.get_set_of_ne (Ne.symm hm), getLatest]

theorem getHistory_record : (t.record q).getHistory m = if q.marketId = m then
    Throttle.capped maxPoints (t.getHistory m ++ [q.point]) else t.getHistory m := by
  rw [getHistory, record]
  split_ifs with hm
  · rw [← hm, OrderedMap.get_set_self, Option.getD_some]
  · rw [OrderedMap.get_set_of_ne (Ne.symm hm), getHistory]

theorem getLatest_eq_some_iff :
    t.getLatest m = some q ↔ q ∈ t.latest.entries.map Prod.snd ∧ q.marketId = m := by
  rw [getLatest, OrderedMap.get_eq_some_iff, List.mem_map]
  constructor
  · intro h
    exact ⟨⟨_, h, rfl⟩, t.keyed _ h⟩
  · rintro ⟨⟨e, he, rfl⟩, rfl⟩
    rw [t.keyed e he]
    exact he

theorem isTable_latest (t : QuoteTracker) :
    IsTable MarketQuote.marketId (t.latest.entries.map Prod.snd) := by
  have hkeys : (t.latest.entries.map Prod.snd).map MarketQuote.marketId =
      t.latest.entries.map Prod.fst := by
    rw [List.map_map]
    exact List.map_congr_left t.keyed
  rw [IsTable, hkeys]
  exact t.latest.nodup

theorem isTable_getAllLatest (t : QuoteTracker) : IsTable MarketQuote.marketId t.getAllLatest :=
  (t.isTable_latest.perm (byTime_perm _)).sublist (List.take_sublist _ _)

theorem falling_getAllLatest (t : QuoteTracker) : Falling t.getAllLatest :=
  (falling_byTime _).sublist (List.take_sublist _ _)

theorem getLatest_of_mem (h : q ∈ t.getAllLatest) : t.getLatest q.marketId = some q :=
  getLatest_eq_some_iff.mpr ⟨(byTime_perm _).mem_iff.mp (List.mem_of_mem_take h), rfl⟩

/-- Up to forty markets, all of them are returned. -/
theorem getAllLatest_perm (h : t.latest.entries.length ≤ maxQuotes) :
    t.getAllLatest.Perm (t.latest.entries.map Prod.snd) := by
  rw [getAllLatest, List.take_of_length_le]
  · exact byTime_perm _
  · rw [(byTime_perm _).length_eq, List.length_map]
    exact h

end QuoteTracker

/-! ## Whole runs -/

def recordAll (quotes : List MarketQuote) : QuoteTracker := quotes.foldl .record .empty

theorem getLatest_recordAll (quotes : List MarketQuote) (m : JsString) :
    (recordAll quotes).getLatest m = last MarketQuote.marketId m quotes := by
  induction quotes using List.reverseRecOn with
  | nil => rfl
  | append_singleton quotes q ih =>
    rw [recordAll, List.foldl_concat, QuoteTracker.getLatest_record, last_append, last_singleton,
      ← ih, recordAll]
    split_ifs
    · rfl
    · rfl

/-- The last points of a list. -/
def lastPoints (points : List QuotePoint) : List QuotePoint :=
  points.drop (points.length - maxPoints)

theorem capped_lastPoints (points : List QuotePoint) (p : QuotePoint) :
    Throttle.capped maxPoints (lastPoints points ++ [p]) = lastPoints (points ++ [p]) := by
  have hlength : (lastPoints points).length = min points.length maxPoints := by
    rw [lastPoints, List.length_drop]
    omega
  rw [Throttle.capped, List.length_append, hlength, List.length_singleton, lastPoints, lastPoints,
    List.length_append, List.length_singleton]
  split_ifs with hlong
  · have hdrop : points.length + 1 - maxPoints = points.length - maxPoints + 1 := by omega
    rw [hdrop, ← List.drop_drop, List.drop_append_of_le_length (by omega), List.drop_one]
  · have hdrop : points.length + 1 - maxPoints = 0 ∧ points.length - maxPoints = 0 := by omega
    rw [hdrop.1, hdrop.2, List.drop_zero, List.drop_zero]

/-- **The sparkline of a market** is its last 240 points. -/
theorem getHistory_recordAll (quotes : List MarketQuote) (m : JsString) :
    (recordAll quotes).getHistory m =
      lastPoints ((quotes.filter fun q => q.marketId = m).map MarketQuote.point) := by
  induction quotes using List.reverseRecOn with
  | nil => exact List.drop_nil.symm
  | append_singleton quotes q ih =>
    rw [recordAll, List.foldl_concat, QuoteTracker.getHistory_record, ← recordAll, ih,
      List.filter_append, List.map_append]
    split_ifs with hm
    · rw [capped_lastPoints, List.filter_singleton, decide_eq_true hm, cond_true,
        List.map_singleton]
    · rw [List.filter_singleton, decide_eq_false hm, cond_false, List.map_nil, List.append_nil]

end Stoppage.Quotes

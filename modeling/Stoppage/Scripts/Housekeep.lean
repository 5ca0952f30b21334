import Stoppage.Agent.EventLedger
import Stoppage.Lib.NumberText
import Stoppage.Quant.Model
import Stoppage.Receipt.Resume

/-! # `scripts/housekeep.ts`

Stale markets are settled from the proof reference of the command line, or voided. The parser keeps
the flags under the names they are given by, with hyphens; the keys of the statistics are looked up
in camel case. So no reference in the documented syntax is complete: nothing is settled, and every
stale market is voided unless voiding is turned off.
-/

namespace Stoppage.Housekeep
open Fallible Sdk Escrow Agent Quant
open NumberText (JsNumber)
set_option autoImplicit false

/-! ## The command line -/

abbrev Args := JsString → Option JsString

def flagName (raw : JsString) : Option JsString :=
  if raw.take 2 = key "--" then some ((raw.takeWhile (· ≠ Json.unit '=')).drop 2) else none

def setArg (args : Args) (raw : JsString) : Args :=
  match flagName raw with
  | none => args
  | some name =>
    let text := match raw.dropWhile (· ≠ Json.unit '=') with
      | [] => key "true"
      | _ :: text => text
    Function.update args name (some text)

/-- The record `args`; a later flag replaces an earlier one of its name. -/
def parseArgs (argv : List JsString) : Args := argv.foldl setArg fun _ => none

def flag (args : Args) (name : String) (byDefault : Bool) : Bool :=
  match args (key name) with
  | some text => decide (text ≠ key "false")
  | none => byDefault

/-! ## Numbers -/

/-- `Number(s)` -/
def numberOf (s : JsString) : JsNumber :=
  match NumberText.literal (NumberText.trim s) with
  | some x => match NumberText.toDouble x with
    | some x => .finite x
    | none => .infinite (decide (x < 0))
  | none =>
    if NumberText.trim s ∈ [key "Infinity", key "+Infinity"] then .infinite false
    else if NumberText.trim s = key "-Infinity" then .infinite true
    else .nan

/-- `args.name ? Number(args.name) : undefined` -/
def numberArg (args : Args) (name : String) : Option JsNumber :=
  ((args (key name)).filter (· ≠ [])).map numberOf

/-- `Math.max(0, Number(value(name, String(byDefault))) || byDefault)`, `none` for infinity. -/
def duration (args : Args) (name : String) (byDefault : ℚ) : Option ℚ :=
  match numberOf <$> args (key name) with
  | none | some .nan => some byDefault
  | some (.finite x) => some (if x = 0 then byDefault else max 0 x)
  | some (.infinite negative) => if negative then some 0 else none

/-! ## The proof reference -/

/-- What `buildSettleFromProofIxs` fetches its proof by, and the outcome. -/
structure ProofRef where
  fixtureId : JsNumber
  seq : JsNumber
  statKey : JsNumber
  statKey2 : Option JsNumber
  outcome : Agent.Side
deriving DecidableEq

/-- `outFixture && outSeq && outStatKey && outOutcome`, with the keys of the statistics under the
given names. -/
def proofRef (statKey statKey2 : String) (args : Args) : Option ProofRef := do
  let fixtureId ← (numberArg args "fixture").filter JsNumber.truthy
  let seq ← (numberArg args "seq").filter JsNumber.truthy
  let first ← (numberArg args statKey).filter JsNumber.truthy
  let outcome ← if args (key "outcome") = some (key "yes") then some Agent.Side.yes
    else if args (key "outcome") = some (key "no") then some Agent.Side.no else none
  pure ⟨fixtureId, seq, first, numberArg args statKey2, outcome⟩

/-! ## Settling -/

structure Env where
  wallet : Pubkey
  txline : TxlineProgram
  packets : Packets
  /-- `new PublicKey(addr)`, which throws for a text that is no key. -/
  publicKey : JsString → Option Pubkey

/-- What the outside answers while a market is at its turn, each `.error` where it throws. -/
structure Answers where
  getAccountInfo : Except SdkError (Option Bytes)
  now : ℤ
  /-- `loadCredentials`, and the check of the network. -/
  credentials : Except SdkError Unit
  fetchStatValidation : ProofRef → Except SdkError StatValidation
  alt : SettleAlt
  /-- Sending the settlement, and the ledger line after it. -/
  submitSettle : Except SdkError Unit
  /-- `.error` where the transaction does not go through. -/
  submitVoid : Except SdkError Unit
  claimMarket : Except SdkError Unit

def marketThreshold (market : Escrow.Market) : ℚ :=
  (market.predicate.params.threshold <|> market.predicate.params.windowSeconds).getD 0

/-- `${kind}:${outOutcome}:${matchId}` -/
def statement (market : Escrow.Market) (outcome : Agent.Side) : String :=
  String.ofList (Utf16.toChars (kindText market.predicate.kind ++
    key (if outcome = .yes then ":yes:" else ":no:") ++ market.predicate.matchId))

/-- The number as an integer; a proof is fetched by the number itself. -/
def toInt : JsNumber → ℤ
  | .finite x => ⌊x⌋
  | _ => 0

def settleArgs (ref : ProofRef) (market : Escrow.Market) (marketPda : Pubkey) :
    SettleProofArgs where
  fixtureId := (toInt ref.fixtureId).toNat
  seq := toInt ref.seq
  statKey := (toInt ref.statKey).toNat
  statKey2 := ref.statKey2.map fun n => (toInt n).toNat
  threshold := ⌊marketThreshold market⌋
  outcome := ref.outcome
  statement := statement market ref.outcome
  marketPda

def settleIxs (env : Env) (a : Answers) (ref : ProofRef) (market : Escrow.Market)
    (marketPda : Pubkey) : Except SdkError SettleIxs := do
  let proof ← a.fetchStatValidation ref
  buildSettleFromProofIxs env.txline proof (settleArgs ref market marketPda) env.wallet

/-- The reference of the settlement that is submitted, if one is, and how `settleMarket` ends. -/
def settleMarket (env : Env) (a : Answers) (args : Args) (market : Escrow.Market)
    (marketPda : Pubkey) : Option ProofRef × Except SdkError Unit :=
  match proofRef "statKey" "statKey2" args with
  | none => (none, .error (.error "settle requires --fixture --seq --stat-key --outcome"))
  | some ref =>
    match (do
      a.credentials
      let ixs ← settleIxs env a ref market marketPda
      buildSettleTransactions env.packets a.alt ixs) with
    | .error e => (none, .error e)
    | .ok _ =>
      if flag args "dry-run" false then (none, .ok ()) else (some ref, a.submitSettle)

/-! ## Settle or void -/

/-- Sums and products of doubles. -/
def fl (x : ℚ) : ℚ := Double.ofRat x

/-- `closesMs + graceSec * 1000 + staleHours * 3600 * 1000 < nowMs` -/
def isStale (args : Args) (closesAt now : ℤ) : Bool :=
  match duration args "grace" 3600, duration args "min-stale-hours" 8 with
  | some graceSec, some staleHours =>
    decide (fl (fl (closesAt + fl (graceSec * 1000)) + fl (fl (staleHours * 3600) * 1000)) < now)
  | _, _ => false

def isUnsettled (market : Escrow.Market) : Bool :=
  decide (market.status = .open ∨ market.status = .awaitingSettlement)

structure Visit where
  turn : ℕ
  marketPda : Pubkey
  market : Escrow.Market

inductive Submission
  | settle (v : Visit) (ref : ProofRef)
  | void (v : Visit)

/-- What is submitted for a market; the claims afterwards are left out but for their failure. -/
def housekeep (env : Env) (a : Answers) (args : Args) (v : Visit) : List Submission :=
  if isUnsettled v.market && isStale args v.market.closesAt a.now then
    let (submitted, settled) :=
      if flag args "settle" false then settleMarket env a args v.market v.marketPda
      else (none, .error (.error ""))
    submitted.toList.map (.settle v) ++
      if !settled.toBool && flag args "void" true && !flag args "dry-run" false &&
          a.submitVoid.toBool then [.void v]
      else []
  else []

/-- `value("market").split(",").map((s) => s.trim()).filter(Boolean)`, or else the markets of the
ledger. -/
def candidates (args : Args) (marketsFromLedger : List JsString) : List JsString :=
  let given := (((args (key "market")).filter (· ≠ [])).map fun text =>
    ((text.splitOn (Json.unit ',')).map NumberText.trim).filter (· ≠ [])).getD []
  if given = [] then marketsFromLedger else given

def marketsFromLedger {N : Type} (events : List (EventLedger.MatchEvent N)) : List JsString :=
  (events.filterMap fun e => (e.1.string "marketId").filter (· ≠ [])).eraseDups

/-- The markets that the loop reads, up to the first call that throws. -/
def visits (env : Env) (answers : ℕ → Answers) (args : Args) : ℕ → List JsString → List Visit
  | _, [] => []
  | turn, addr :: addrs =>
    match env.publicKey addr with
    | none => []
    | some marketPda =>
      match (answers turn).getAccountInfo with
      | .error _ => []
      | .ok none => visits env answers args (turn + 1) addrs
      | .ok (some data) =>
        match parseMarket data marketPda with
        | .error _ => visits env answers args (turn + 1) addrs
        | .ok market => ⟨turn, marketPda, market⟩ ::
          if flag args "claim" true && !(answers turn).claimMarket.toBool then []
          else visits env answers args (turn + 1) addrs

def run (env : Env) (answers : ℕ → Answers) (argv : List JsString) (ledger : List JsString) :
    List Submission :=
  let args := parseArgs argv
  (visits env answers args 0 (candidates args ledger)).flatMap fun v =>
    housekeep env (answers v.turn) args v

/-! ## The documented syntax -/

/-- No flag is in camel case, as in the usage text. -/
def Documented (argv : List JsString) : Prop :=
  ∀ raw ∈ argv, flagName raw ≠ some (key "statKey") ∧ flagName raw ≠ some (key "statKey2")

/-- The reference that the flags of the usage text supply. -/
def supplied (argv : List JsString) : Option ProofRef :=
  let args := parseArgs argv
  if flag args "settle" false then proofRef "stat-key" "stat-key2" args else none

/-- `resolve_market` would accept the reference for the market: there is a proof for it, and the
program takes the instruction that is built from it. -/
def Acceptable (rt : Runtime) (s : Chain) (env : Env) (a : Answers) (ref : ProofRef) (v : Visit) :
    Prop :=
  ∃ ixs t, settleIxs env a ref v.market v.marketPda = .ok ixs ∧
    Accepts rt s [ixs.budgetIx, ixs.resolveIx] t

/-- A settlement is for a market of the fixture and by the reference of the command line, and no
market is voided that could be settled by that reference. -/
def Right (belongs : JsString → ProofRef → Prop) (rt : Runtime) (chain : ℕ → Chain) (env : Env)
    (answers : ℕ → Answers) (argv : List JsString) : Submission → Prop
  | .settle v ref => belongs v.market.predicate.matchId ref ∧ supplied argv = some ref
  | .void v => ∀ ref, supplied argv = some ref →
    ¬ Acceptable rt (chain v.turn) env (answers v.turn) ref v

/-- Voiding is on, the market is stale and not settled, and its transaction goes through. -/
def Voidable (args : Args) (a : Answers) (v : Visit) : Prop :=
  isUnsettled v.market = true ∧ isStale args v.market.closesAt a.now = true ∧
    flag args "void" true = true ∧ flag args "dry-run" false = false ∧ a.submitVoid.toBool = true

section Runs
variable {argv : List JsString} {env : Env} {a : Answers} {v : Visit}

theorem parseArgs_of_not_given {name : JsString} (h : ∀ raw ∈ argv, flagName raw ≠ some name) :
    parseArgs argv name = none := by
  induction argv using List.reverseRecOn with
  | nil => rfl
  | append_singleton argv raw ih =>
    rw [List.forall_mem_append, List.forall_mem_singleton] at h
    rw [parseArgs, List.foldl_concat, ← parseArgs, setArg]
    cases hraw : flagName raw with
    | none => exact ih h.1
    | some given =>
      have hother : name ≠ given := fun heq => h.2 (hraw.trans (congrArg some heq.symm))
      dsimp only
      rw [Function.update_of_ne hother]
      exact ih h.1

theorem proofRef_documented (h : Documented argv) :
    proofRef "statKey" "statKey2" (parseArgs argv) = none := by
  have hkey : numberArg (parseArgs argv) "statKey" = none := by
    rw [numberArg, parseArgs_of_not_given fun raw hraw => (h raw hraw).1]
    rfl
  rw [proofRef, hkey]
  cases (numberArg (parseArgs argv) "fixture").filter JsNumber.truthy with
  | none => rfl
  | some _ =>
    cases (numberArg (parseArgs argv) "seq").filter JsNumber.truthy with
    | none => rfl
    | some _ => rfl

/-- **What a documented command line does to a market**: it is voided, if at all. -/
theorem mem_housekeep_iff (h : Documented argv) {sub : Submission} :
    sub ∈ housekeep env a (parseArgs argv) v ↔ sub = .void v ∧ Voidable (parseArgs argv) a v := by
  have hsettle : (if flag (parseArgs argv) "settle" false then
      settleMarket env a (parseArgs argv) v.market v.marketPda
      else (none, .error (.error ""))).1 = none ∧
      (if flag (parseArgs argv) "settle" false then
      settleMarket env a (parseArgs argv) v.market v.marketPda
      else (none, .error (.error ""))).2.toBool = false := by
    rw [settleMarket, proofRef_documented h]
    split_ifs <;> exact ⟨rfl, rfl⟩
  simp only [housekeep, hsettle.1, hsettle.2, Option.toList_none, List.map_nil, List.nil_append,
    Bool.not_false, Bool.true_and]
  rw [Voidable]
  split_ifs with hmarket hvoid
  · simp only [Bool.and_eq_true, Bool.not_eq_true'] at hmarket hvoid
    rw [List.mem_singleton]
    exact (and_iff_left ⟨hmarket.1, hmarket.2, hvoid.1.1, hvoid.1.2, hvoid.2⟩).symm
  · refine iff_of_false List.not_mem_nil ?_
    rintro ⟨-, -, -, hon, hdry, hsent⟩
    exact hvoid (by rw [hon, hdry, hsent]; rfl)
  · refine iff_of_false List.not_mem_nil ?_
    rintro ⟨-, hunsettled, hstale, -⟩
    exact hmarket (by rw [hunsettled, hstale]; rfl)

/-- **When a run of the script is right.** -/
theorem housekeep_iff (hdocumented : Documented argv) (belongs : JsString → ProofRef → Prop)
    (rt : Runtime) (chain : ℕ → Chain) (env : Env) (answers : ℕ → Answers)
    (ledger : List JsString) :
    (∀ sub ∈ run env answers argv ledger, Right belongs rt chain env answers argv sub) ↔
      ∀ v ∈ visits env answers (parseArgs argv) 0 (candidates (parseArgs argv) ledger),
        Voidable (parseArgs argv) (answers v.turn) v → ∀ ref, supplied argv = some ref →
          ¬ Acceptable rt (chain v.turn) env (answers v.turn) ref v := by
  rw [run, List.forall_mem_flatMap]
  refine forall₂_congr fun v _ => ?_
  simp only [mem_housekeep_iff hdocumented]
  constructor
  · exact fun h hvoid => h (.void v) ⟨rfl, hvoid⟩
  · rintro h _ ⟨rfl, hvoid⟩
    exact h hvoid

end Runs

/-! ## A match that is over -/

namespace Sample
open Stoppage.Sample

def seeds : MarketSeeds where
  matchId := ⟨[65, 82, 71, 45, 70, 82, 65, 45, 49, 56, 48, 52, 49, 52, 50, 50] ++
    List.replicate 16 0, rfl⟩
  kind := 3
  team := List.Vector.replicate 8 0
  paramU64 := 3

def finished : List Action :=
  [setUp, call (.createMarket alice seeds 1700001000 judge), .tick 1700040000]

def env : Env := ⟨carol, ⟨judge, fun _ => echo⟩, loose, fun _ => some Stoppage.Sample.market⟩

def answers (data : Option Bytes) (_ : ℕ) : Answers where
  getAccountInfo := .ok data
  now := 1700040000000
  credentials := .ok ()
  fetchStatValidation _ := .ok statValidation
  alt := .ready
  submitSettle := .ok ()
  submitVoid := .ok ()
  claimMarket := .ok ()

/-- The command line with a reference for the given outcome. -/
def argvFor (outcome : String) : List JsString :=
  ["--market=4CyfphfssmUr1T6LL4hJPh5Cy1s5KvzRoXL3YEXDhvz6", "--settle", "--fixture=18041422",
    "--seq=900", "--stat-key=1", "--outcome=" ++ outcome].map key

def argv : List JsString := argvFor "yes"

/-- The oracle of the market answers YES, so this reference is refused. -/
def refusedArgv : List JsString := argvFor "no"

instance : DecidablePred Documented :=
  fun argv => inferInstanceAs (Decidable (∀ raw ∈ argv, _ ≠ _ ∧ _ ≠ _))

theorem argv_documented : Documented argv := by decide +kernel

theorem refusedArgv_documented : Documented refusedArgv := by decide +kernel

def ref (outcome : Agent.Side) : ProofRef :=
  ⟨.finite 18041422, .finite 900, .finite 1, none, outcome⟩

theorem supplied_argv : supplied argv = some (ref .yes) := by decide +kernel

theorem supplied_refusedArgv : supplied refusedArgv = some (ref .no) := by decide +kernel

def account (s : Chain) : Option Bytes :=
  (s.market Stoppage.Sample.market).map Stoppage.Market.data

def accepted (ref : ProofRef) (s : Chain) (v : Visit) : Bool :=
  match settleIxs env (answers (account s) v.turn) ref v.market v.marketPda with
  | .error _ => false
  | .ok ixs =>
    match [ixs.budgetIx, ixs.resolveIx].mapM (TransactionInstruction.load twoPrograms) with
    | none => false
    | some tx => (execTx twoPrograms tx s).toBool

theorem accepted_iff {ref : ProofRef} {s : Chain} {v : Visit} : accepted ref s v = true ↔
    Acceptable twoPrograms s env (answers (account s) v.turn) ref v := by
  rw [accepted]
  constructor
  · intro h
    split at h
    · cases h
    · rename_i ixs hixs
      split at h
      · cases h
      · rename_i tx htx
        obtain ⟨t, ht⟩ := exists_of_isOk h
        exact ⟨ixs, t, hixs, tx, htx, ht⟩
  · rintro ⟨ixs, t, hixs, tx, htx, ht⟩
    rw [hixs]
    dsimp only
    rw [htx]
    dsimp only
    rw [ht]
    rfl

/-- The market is voided in the run, and the reference of the command line would settle it. -/
def Wronged (s : Chain) : Prop :=
  ((run env (answers (account s)) argv []).any fun sub => match sub with
    | .settle _ _ => false
    | .void v => accepted (ref .yes) s v) = true

instance : DecidablePred Wronged := fun _ => inferInstanceAs (Decidable (_ = _))

/-- One market is voided in the run, and the reference of the command line settles none. -/
def Forsaken (s : Chain) : Prop :=
  (run env (answers (account s)) refusedArgv []).length = 1 ∧
    ∀ v ∈ visits env (answers (account s)) (parseArgs refusedArgv) 0
      (candidates (parseArgs refusedArgv) []), accepted (ref .no) s v = false

instance : DecidablePred Forsaken :=
  fun _ => inferInstanceAs (Decidable (_ ∧ ∀ v ∈ _, _ = _))

end Sample

/-- The market is voided behind a reference that its oracle does not take. -/
theorem housekeep_iff_refused : ∃ s, Reachable Stoppage.Sample.twoPrograms s ∧
    (run Sample.env (Sample.answers (Sample.account s)) Sample.refusedArgv []).length = 1 ∧
    ∀ sub ∈ run Sample.env (Sample.answers (Sample.account s)) Sample.refusedArgv [],
      Right (fun _ _ => False) Stoppage.Sample.twoPrograms (fun _ => s) Sample.env
        (Sample.answers (Sample.account s)) Sample.refusedArgv sub := by
  have hrun : Action.runsTo Stoppage.Sample.twoPrograms Sample.finished Stoppage.Sample.genesis
      Sample.Forsaken = true := by decide +kernel
  obtain ⟨s, hsteps, hvoided, hrefused⟩ := steps_of_runsTo hrun
  refine ⟨s, ⟨_, _, Stoppage.Sample.genesis_ok, hsteps⟩, hvoided,
    (housekeep_iff Sample.refusedArgv_documented _ _ _ _ _ _).mpr fun v hv _ ref href => ?_⟩
  obtain rfl := Option.some.inj (Sample.supplied_refusedArgv.symm.trans href)
  rw [← Sample.accepted_iff, hrefused v hv]
  exact Bool.false_ne_true

/-- A market is voided although the command line has the reference that settles it. -/
theorem settleable_market_is_voided : ∃ s sub, Reachable Stoppage.Sample.twoPrograms s ∧
    Documented Sample.argv ∧
    sub ∈ run Sample.env (Sample.answers (Sample.account s)) Sample.argv [] ∧
    ∀ belongs, ¬ Right belongs Stoppage.Sample.twoPrograms (fun _ => s) Sample.env
      (Sample.answers (Sample.account s)) Sample.argv sub := by
  have hrun : Action.runsTo Stoppage.Sample.twoPrograms Sample.finished Stoppage.Sample.genesis
      Sample.Wronged = true := by decide +kernel
  obtain ⟨s, hsteps, hwronged⟩ := steps_of_runsTo hrun
  obtain ⟨sub, hsub, haccepted⟩ := List.any_eq_true.mp hwronged
  refine ⟨s, sub, ⟨_, _, Stoppage.Sample.genesis_ok, hsteps⟩, Sample.argv_documented, hsub,
    fun belongs hright => ?_⟩
  cases sub with
  | settle v ref => cases haccepted
  | void v =>
    exact hright (Sample.ref .yes) Sample.supplied_argv (Sample.accepted_iff.mp haccepted)

end Stoppage.Housekeep

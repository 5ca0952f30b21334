import Stoppage.Agent.State

/-! # `apps/agent/src/loop.ts`: executing an action

JavaScript runs to the next `await`, and other tasks may run there. Each function is cut at its
awaits: a `Point` is a place where it waits, with what it remembers, and `resumePoint` is the code
from there to the next one.
-/

namespace Stoppage.Agent
set_option autoImplicit false

/-! ## Waiting -/

/-- A settlement under way: the index and the market found for the action, and what is to be
proved. -/
structure Settling where
  action : SettleAction
  idx : ℕ
  market : OpenMarket
  args : SettleProofArgs
deriving DecidableEq

inductive CreateAwait where
  | accountInfo
  | blockhash
  | submit
deriving DecidableEq

inductive SettleAwait where
  | proof
  | build
  | receipt
  | submit (tx : Tx) (rest : List Tx)
  | attest (signature : String)
deriving DecidableEq

inductive VoidAwait where
  | blockhash
  | submit
deriving DecidableEq

inductive QuoteAwait where
  | blockhash
  | submit
deriving DecidableEq

inductive Point where
  | create (a : CreateAction) (closesAt : ℕ) (c : CreateAwait)
  | settle (st : Settling) (c : SettleAwait)
  | void (market : OpenMarket) (c : VoidAwait)
  | quote (marketPda : Pubkey) (snapshot : PricingSnapshot) (c : QuoteAwait)
  /-- `settleMarket` has returned, and `executeAction` is yet to go on. -/
  | returned (a : SettleAction) (result : ActionResult)
  | sleep (wakeAt : ℕ) (result : ActionResult)
deriving DecidableEq

/-- What an `await` yields, or the error it throws. -/
inductive Answer where
  | advice (templates : Option MatchTemplates)
  | account (found : Except String Bool)
  | blockhash (r : Except String Unit)
  | proof (r : Except String Unit)
  | built (split : Except String Bool)
  | sent (signature : Except String String)
  | attested (signature : Option String)
  | awake

/-- How far a call has come: it waits, or it has returned or thrown. -/
inductive Flow where
  | waits (p : Point)
  | returned (r : ActionResult)
  | thrown (error : String)
deriving DecidableEq

/-! ## Creating a market -/

def includes (s part : String) : Bool := decide (part.toList <:+: s.toList)

/-- `this.openMarkets.push` of `createMarket`. -/
def opened (cfg : AgentConfig) (w : World) (a : CreateAction) : OpenMarket where
  predicate := a.predicate
  label := a.label
  createdAt := w.now
  ttlSeconds := a.closesInSeconds
  marketPda := cfg.marketPda a.predicate

def createMarket (cfg : AgentConfig) (a : CreateAction) (w : World) : World × Flow :=
  let closesAt := w.now / 1000 + a.closesInSeconds
  if cfg.dryRun then
    (w.push (opened cfg w a), .returned (succeeded (cfg.marketPda a.predicate)))
  else (w, .waits (.create a closesAt .accountInfo))

/-- The `catch` of `createMarket`. -/
def createFailed (cfg : AgentConfig) (a : CreateAction) (error : String) : Flow :=
  if includes error "already in use" ∨ includes error "0x0" then
    .returned (succeeded (cfg.marketPda a.predicate))
  else .thrown error

def resumeCreate (cfg : AgentConfig) (a : CreateAction) (closesAt : ℕ) :
    CreateAwait → Answer → World → Option (World × Flow)
  | .accountInfo, .account (.ok true), w =>
    some (w.push (opened cfg w a),
      .returned { succeeded (cfg.marketPda a.predicate) with skipped := true })
  -- A failing lookup is ignored.
  | .accountInfo, .account _, w =>
    some (w.push (opened cfg w a), .waits (.create a closesAt .blockhash))
  | .blockhash, .blockhash (.ok ()), w =>
    some (w.submit (.createMarket (cfg.marketPda a.predicate) a.predicate closesAt),
      .waits (.create a closesAt .submit))
  | .blockhash, .blockhash (.error e), w => some (w, createFailed cfg a e)
  | .submit, .sent (.ok signature), w =>
    some (w.confirm (.createMarket (cfg.marketPda a.predicate) a.predicate closesAt),
      .returned (confirmedAs signature (cfg.marketPda a.predicate)))
  | .submit, .sent (.error e), w => some (w, createFailed cfg a e)
  | _, _, _ => none

/-- The turns of a creation, one for each answer that it can be given. -/
inductive CreateTurn (cfg : AgentConfig) (a : CreateAction) (closesAt : ℕ) (w : World) :
    CreateAwait → Answer → World → Flow → Prop
  | found : CreateTurn cfg a closesAt w .accountInfo (.account (.ok true)) (w.push (opened cfg w a))
      (.returned { succeeded (cfg.marketPda a.predicate) with skipped := true })
  | missing (answer : Except String Bool) (hnot : answer ≠ .ok true) :
      CreateTurn cfg a closesAt w .accountInfo (.account answer)
      (w.push (opened cfg w a)) (.waits (.create a closesAt .blockhash))
  | sends : CreateTurn cfg a closesAt w .blockhash (.blockhash (.ok ()))
      (w.submit (.createMarket (cfg.marketPda a.predicate) a.predicate closesAt))
      (.waits (.create a closesAt .submit))
  | noBlockhash (e : String) (f : Flow) (hf : f = createFailed cfg a e) :
      CreateTurn cfg a closesAt w .blockhash (.blockhash (.error e)) w f
  | confirms (signature : String) : CreateTurn cfg a closesAt w .submit (.sent (.ok signature))
      (w.confirm (.createMarket (cfg.marketPda a.predicate) a.predicate closesAt))
      (.returned (confirmedAs signature (cfg.marketPda a.predicate)))
  | unconfirmed (e : String) (f : Flow) (hf : f = createFailed cfg a e) :
      CreateTurn cfg a closesAt w .submit (.sent (.error e)) w f

theorem resumeCreate_turn {cfg : AgentConfig} {a : CreateAction} {closesAt : ℕ} {c : CreateAwait}
    {answer : Answer} {w w' : World} {f : Flow}
    (h : resumeCreate cfg a closesAt c answer w = some (w', f)) :
    CreateTurn cfg a closesAt w c answer w' f := by
  unfold resumeCreate at h
  split at h
  case h_2 answer hnot =>
    cases h
    exact .missing answer hnot
  case h_4 e =>
    cases h
    exact .noBlockhash e _ rfl
  case h_6 e =>
    cases h
    exact .unconfirmed e _ rfl
  case h_7 => cases h
  all_goals
    cases h
    constructor

/-! ## Settling a market -/

def sameLine (p : MarketPredicate) (m : OpenMarket) : Bool :=
  decide (m.predicate.kind = p.kind ∧ m.predicate.matchId = p.matchId)

/-- The first tracked market of the same kind and match, with its index. -/
def findOpen (p : MarketPredicate) (openMarkets : List OpenMarket) : Option (ℕ × OpenMarket) := do
  let idx ← openMarkets.findIdx? (sameLine p)
  let market ← openMarkets[idx]?
  some (idx, market)

/-- The text after the last `-`. -/
def lastPart (s : String) : String :=
  String.ofList ((s.toList.reverse.takeWhile (· ≠ '-')).reverse)

def fixtureIdForMatch (cfg : AgentConfig) (w : World) (matchId : String) : Option ℕ :=
  match w.matchToFixture matchId with
  | some fixtureId => if fixtureId = 0 then none else some fixtureId
  | none => cfg.positiveNumber (lastPart matchId)

def settleArgs (fixtureId : ℕ) (a : SettleAction) (market : OpenMarket) : SettleProofArgs where
  fixtureId := fixtureId
  seq := a.seq
  statKey := a.statKey
  statKey2 := a.statKey2
  threshold := a.predicate.threshold
  outcome := a.outcome
  statement := a.label
  marketPda := market.marketPda

def settleMarket (cfg : AgentConfig) (a : SettleAction) (w : World) : Flow :=
  match findOpen a.predicate w.openMarkets with
  | none => .returned (failed none "Market not found")
  | some (idx, market) =>
    let unproved := Flow.returned (failed (some market.marketPda)
      "Proof-gated settlement requires TxLINE credentials and a validation proof")
    if cfg.txlineCreds ∧ 0 < a.seq ∧ 0 < a.statKey then
      match fixtureIdForMatch cfg w a.predicate.matchId with
      | none => unproved
      | some fixtureId => .waits (.settle ⟨a, idx, market, settleArgs fixtureId a market⟩ .proof)
    else unproved

def settleSend (st : Settling) (tx : Tx) (rest : List Tx) (w : World) : World × Flow :=
  (w.submit tx, .waits (.settle st (.submit tx rest)))

def resumeSettle (cfg : AgentConfig) (st : Settling) :
    SettleAwait → Answer → World → Option (World × Flow)
  | .proof, .proof (.ok ()), w =>
    if cfg.dryRun then some (w.splice st.idx, .returned (succeeded st.market.marketPda))
    else some (w, .waits (.settle st .build))
  | .proof, .proof (.error e), w =>
    some (w, .returned (failed (some st.market.marketPda) s!"Proof fetch/build failed: {e}"))
  | .build, .built (.ok false), w => some (settleSend st (.resolveAndSettle st.args) [] w)
  | .build, .built (.ok true), w => some (w, .waits (.settle st .receipt))
  | .build, .built (.error e), w => some (w, .thrown e)
  | .receipt, .account (.ok false), w =>
    some (settleSend st (.resolveMarket st.args) [.settleFromProof st.args] w)
  -- The receipt is there from an earlier attempt.
  | .receipt, .account (.ok true), w => some (settleSend st (.settleFromProof st.args) [] w)
  | .receipt, .account (.error e), w => some (w, .thrown e)
  | .submit tx (next :: rest), .sent (.ok _), w => some (settleSend st next rest (w.confirm tx))
  | .submit tx [], .sent (.ok signature), w =>
    some ((w.confirm tx).splice st.idx, .waits (.settle st (.attest signature)))
  | .submit _ _, .sent (.error e), w => some (w, .thrown e)
  | .attest signature, .attested _, w =>
    some (w, .returned (confirmedAs signature st.market.marketPda))
  | _, _, _ => none

/-- The turns of a settlement, one for each answer that it can be given. -/
inductive SettleTurn (cfg : AgentConfig) (st : Settling) (w : World) :
    SettleAwait → Answer → World → Flow → Prop
  | dryRun (hdry : cfg.dryRun = true) : SettleTurn cfg st w .proof (.proof (.ok ()))
      (w.splice st.idx) (.returned (succeeded st.market.marketPda))
  | proved (hlive : ¬ cfg.dryRun = true) :
      SettleTurn cfg st w .proof (.proof (.ok ())) w (.waits (.settle st .build))
  | unproved (e : String) : SettleTurn cfg st w .proof (.proof (.error e)) w
      (.returned (failed (some st.market.marketPda) s!"Proof fetch/build failed: {e}"))
  | bundle : SettleTurn cfg st w .build (.built (.ok false)) (w.submit (.resolveAndSettle st.args))
      (.waits (.settle st (.submit (.resolveAndSettle st.args) [])))
  | tooLarge : SettleTurn cfg st w .build (.built (.ok true)) w (.waits (.settle st .receipt))
  | buildThrows (e : String) : SettleTurn cfg st w .build (.built (.error e)) w (.thrown e)
  | resolve : SettleTurn cfg st w .receipt (.account (.ok false)) (w.submit (.resolveMarket st.args))
      (.waits (.settle st (.submit (.resolveMarket st.args) [.settleFromProof st.args])))
  | resume : SettleTurn cfg st w .receipt (.account (.ok true)) (w.submit (.settleFromProof st.args))
      (.waits (.settle st (.submit (.settleFromProof st.args) [])))
  | accountThrows (e : String) : SettleTurn cfg st w .receipt (.account (.error e)) w (.thrown e)
  | next (tx next : Tx) (rest : List Tx) (signature : String) :
      SettleTurn cfg st w (.submit tx (next :: rest)) (.sent (.ok signature))
        ((w.confirm tx).submit next) (.waits (.settle st (.submit next rest)))
  | last (tx : Tx) (signature : String) : SettleTurn cfg st w (.submit tx []) (.sent (.ok signature))
      ((w.confirm tx).splice st.idx) (.waits (.settle st (.attest signature)))
  | sendThrows (tx : Tx) (rest : List Tx) (e : String) :
      SettleTurn cfg st w (.submit tx rest) (.sent (.error e)) w (.thrown e)
  | attested (signature : String) (found : Option String) :
      SettleTurn cfg st w (.attest signature) (.attested found) w
        (.returned (confirmedAs signature st.market.marketPda))

theorem resumeSettle_turn {cfg : AgentConfig} {st : Settling} {c : SettleAwait} {answer : Answer}
    {w w' : World} {f : Flow} (h : resumeSettle cfg st c answer w = some (w', f)) :
    SettleTurn cfg st w c answer w' f := by
  unfold resumeSettle at h
  split at h
  case h_1 =>
    split at h
    · rename_i hdry
      cases h
      exact .dryRun hdry
    · rename_i hlive
      cases h
      exact .proved hlive
  case h_13 => cases h
  all_goals
    cases h
    constructor

/-! ## Voiding and quoting -/

def voidMarket (cfg : AgentConfig) (a : VoidAction) (w : World) : World × Flow :=
  match findOpen a.predicate w.openMarkets with
  | none => (w, .returned (failed none "Market not found"))
  | some (idx, market) =>
    let w := w.splice idx
    if cfg.dryRun then (w, .returned (succeeded market.marketPda))
    else (w, .waits (.void market .blockhash))

def resumeVoid (market : OpenMarket) : VoidAwait → Answer → World → Option (World × Flow)
  | .blockhash, .blockhash (.ok ()), w =>
    some (w.submit (.voidMarket market.marketPda), .waits (.void market .submit))
  | .blockhash, .blockhash (.error e), w => some (w, .thrown e)
  | .submit, .sent (.ok signature), w =>
    some (w.confirm (.voidMarket market.marketPda), .returned (confirmedAs signature market.marketPda))
  | .submit, .sent (.error e), w => some (w, .thrown e)
  | _, _, _ => none

/-- The turns of a void, one for each answer that it can be given. -/
inductive VoidTurn (market : OpenMarket) (w : World) : VoidAwait → Answer → World → Flow → Prop
  | sends : VoidTurn market w .blockhash (.blockhash (.ok ()))
      (w.submit (.voidMarket market.marketPda)) (.waits (.void market .submit))
  | noBlockhash (e : String) :
      VoidTurn market w .blockhash (.blockhash (.error e)) w (.thrown e)
  | confirms (signature : String) : VoidTurn market w .submit (.sent (.ok signature))
      (w.confirm (.voidMarket market.marketPda)) (.returned (confirmedAs signature market.marketPda))
  | unconfirmed (e : String) : VoidTurn market w .submit (.sent (.error e)) w (.thrown e)

theorem resumeVoid_turn {market : OpenMarket} {c : VoidAwait} {answer : Answer} {w w' : World}
    {f : Flow} (h : resumeVoid market c answer w = some (w', f)) :
    VoidTurn market w c answer w' f := by
  unfold resumeVoid at h
  split at h
  case h_5 => cases h
  all_goals
    cases h
    constructor

def quoteMarket (cfg : AgentConfig) (a : QuoteAction) (w : World) : Flow :=
  match w.openMarkets.find? (sameLine a.predicate) with
  | none => .returned (failed none "Market not found")
  | some market =>
    if cfg.dryRun then .returned (succeeded market.marketPda)
    else .waits (.quote market.marketPda a.snapshot .blockhash)

/-- A failing pricing attestation does not fail the quote. One whose confirmation fails was sent, and
may have landed. -/
def resumeQuote (marketPda : Pubkey) (snapshot : PricingSnapshot) :
    QuoteAwait → Answer → World → Option (World × Flow)
  | .blockhash, .blockhash (.ok ()), w =>
    some (w.submit (.attestPricing marketPda snapshot), .waits (.quote marketPda snapshot .submit))
  | .blockhash, .blockhash (.error _), w => some (w, .returned (succeeded marketPda))
  | .submit, .sent (.ok _), w =>
    some (w.confirm (.attestPricing marketPda snapshot), .returned (succeeded marketPda))
  | .submit, .sent (.error _), w => some (w, .returned (succeeded marketPda))
  | _, _, _ => none

/-- The turns of a quote, one for each answer that it can be given. -/
inductive QuoteTurn (marketPda : Pubkey) (snapshot : PricingSnapshot) (w : World) :
    QuoteAwait → Answer → World → Flow → Prop
  | sends : QuoteTurn marketPda snapshot w .blockhash (.blockhash (.ok ()))
      (w.submit (.attestPricing marketPda snapshot)) (.waits (.quote marketPda snapshot .submit))
  | noBlockhash (e : String) : QuoteTurn marketPda snapshot w .blockhash (.blockhash (.error e)) w
      (.returned (succeeded marketPda))
  | confirms (signature : String) : QuoteTurn marketPda snapshot w .submit (.sent (.ok signature))
      (w.confirm (.attestPricing marketPda snapshot)) (.returned (succeeded marketPda))
  | unconfirmed (e : String) : QuoteTurn marketPda snapshot w .submit (.sent (.error e)) w
      (.returned (succeeded marketPda))

theorem resumeQuote_turn {marketPda : Pubkey} {snapshot : PricingSnapshot} {c : QuoteAwait}
    {answer : Answer} {w w' : World} {f : Flow}
    (h : resumeQuote marketPda snapshot c answer w = some (w', f)) :
    QuoteTurn marketPda snapshot w c answer w' f := by
  unfold resumeQuote at h
  split at h
  case h_5 => cases h
  all_goals
    cases h
    constructor

/-! ## From one await to the next -/

def startAction (cfg : AgentConfig) (a : AgentAction) (w : World) : World × Flow :=
  match a with
  | .createMarket a => createMarket cfg a w
  | .settleMarket a => (w, settleMarket cfg a w)
  | .voidMarket a => voidMarket cfg a w
  | .quoteMarket a => (w, quoteMarket cfg a w)

/-- The code of an action after one of its awaits. -/
def resumePoint (cfg : AgentConfig) (p : Point) (answer : Answer) (w : World) :
    Option (World × Flow) :=
  match p with
  | .create a closesAt c => resumeCreate cfg a closesAt c answer w
  | .settle st c => resumeSettle cfg st c answer w
  | .void market c => resumeVoid market c answer w
  | .quote marketPda snapshot c => resumeQuote marketPda snapshot c answer w
  | .returned _ _ | .sleep _ _ => none

/-! ## `executeAction` -/

/-- The settlement that a point is part of. -/
def Point.settling : Point → Option SettleAction
  | .settle st _ => some st.action
  | _ => none

def AgentAction.settling : AgentAction → Option SettleAction
  | .settleMarket a => some a
  | _ => none

/-- What `executeAction` puts on record when a settlement has returned. -/
def recordSettlement (action : SettleAction) (r : ActionResult) (w : World) : World :=
  match r.marketPda with
  | none => w
  | some key => if r.success then w.deletePending key else w.enqueueSettlementRetry action key

/-- Where `executeAction` waits next, given how far its action has come. -/
def finishAction (settling : Option SettleAction) : World × Flow → World × Point
  | (w, .waits p) => (w, p)
  | (w, .returned r) =>
    (w, (settling.map fun a => .returned a r).getD (.sleep (w.now + 2000) r))
  | (w, .thrown e) => (w, .sleep (w.now + 3000) (failed none e))

def executeAction (cfg : AgentConfig) (a : AgentAction) (w : World) : World × Point :=
  finishAction a.settling (startAction cfg a w)

def resumeAction (cfg : AgentConfig) (p : Point) (answer : Answer) (w : World) :
    Option (World × Point) :=
  match p, answer with
  | .returned a r, .awake => some (recordSettlement a r w, .sleep (w.now + 2000) r)
  | p, answer => (resumePoint cfg p answer w).map (finishAction p.settling)

end Stoppage.Agent

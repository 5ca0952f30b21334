import Stoppage.Chain.Accounts
import Stoppage.Lib.Base64
import Stoppage.Lib.Double
import Stoppage.Lib.Hex
import Stoppage.Lib.Utf8
import Stoppage.Sdk.Normalizer

/-! # `apps/web/app/api/proof/[market]/route.ts`: the proof of a market

The route reads the fields of the resolution event out of the log lines of the newest transactions
of a market. A line does not say which program wrote it, so `proof_route_iff` asks for the one line
that decides. Keys stand for their base58 texts.
-/

namespace Stoppage.Web
open LittleEndian
set_option autoImplicit false

/-! ## Log lines -/

/-- The fields of a `MarketResolved` event as they lie in its bytes. -/
structure RawEvent where
  market : Pubkey
  resolution : Pubkey
  statement : Bytes
  statementSize : statement.length < 2 ^ 32
  validatorProgram : Pubkey
  merkleRoot : List.Vector UInt8 32
  outcome : UInt8
  proofHash : List.Vector UInt8 32
  resolver : Pubkey
  timestamp : Int64
  validatedOnChain : UInt8

/-- `sha256("event:MarketResolved")[0..8]` -/
def marketResolvedDiscriminator : Bytes := [0x59, 0x43, 0xe6, 0x5f, 0x8f, 0x6a, 0xc7, 0xca]

def RawEvent.encode (e : RawEvent) : Bytes :=
  marketResolvedDiscriminator ++ (e.market.bytes ++ (e.resolution.bytes ++
    (LittleEndian.encode 4 e.statement.length ++ (e.statement ++ (e.validatorProgram.bytes ++
      (e.merkleRoot.1 ++ ([e.outcome] ++ (e.proofHash.1 ++ (e.resolver.bytes ++
        (encodeI64 e.timestamp ++ [e.validatedOnChain]))))))))))

/-- What `emit!` of `programs/settlement` writes. -/
structure MarketResolved where
  market : Pubkey
  resolution : Pubkey
  statement : String
  statementSize : (Utf8.encode statement.toList).length < 2 ^ 32
  validatorProgram : Pubkey
  merkleRoot : List.Vector UInt8 32
  outcome : UInt8
  proofHash : List.Vector UInt8 32
  resolver : Pubkey
  timestamp : Int64
  validatedOnChain : Bool

def MarketResolved.raw (e : MarketResolved) : RawEvent :=
  { e with
    statement := Utf8.encode e.statement.toList
    validatedOnChain := if e.validatedOnChain then 1 else 0 }

def dataMark : List Char := "Program data:".toList

/-- The lines of a log: the data that a program logs, and all others, none of which starts like
data. -/
inductive LogLine where
  | data (program : Pubkey) (fields : List Bytes)
  | other (text : List Char) (h : ¬ dataMark <+: text)

def LogLine.text : LogLine → List Char
  | .data _ fields => dataMark ++ (' ' :: [' '].intercalate (fields.map Base64.encode))
  | .other text _ => text

/-- A transaction of a market with all that it logged, and how many of these lines the node has
recorded, if it recorded any. -/
structure Transaction where
  signature : String
  err : Bool
  lines : List LogLine
  recorded : Option ℕ

def Transaction.kept (tx : Transaction) : List LogLine :=
  match tx.recorded with
  | none => []
  | some n => tx.lines.take n

/-- `tx.meta.logMessages` -/
def Transaction.logMessages (tx : Transaction) : Option (List (List Char)) :=
  tx.recorded.map fun n => (tx.lines.take n).map LogLine.text ++
    if n < tx.lines.length then ["Log truncated".toList] else []

/-! ## The route -/

structure ParsedMarketResolved where
  market : Bytes
  resolution : Bytes
  statement : List Char
  validatorProgram : Bytes
  merkleRoot : List Char
  outcome : String
  outcomeBool : UInt8
  proofHash : List Char
  resolver : Bytes
  timestamp : ℤ
  validatedOnChain : Bool

/-- The body of the loop of `parseMarketResolvedFromLogs` behind the decoding of a line. -/
def parseEvent (buf : Bytes) : Option ParsedMarketResolved :=
  if buf.length < 8 + 32 + 32 + 4 ∨ buf.take 8 ≠ marketResolvedDiscriminator then none
  else
    let statementLen := decode (slice buf 72 4)
    let off := 76
    if buf.length < off + statementLen + 32 + 32 + 1 + 32 + 32 + 8 + 1 then none
    else
      let off := off + statementLen
      let outcomeBool := buf.getD (off + 64) 0
      some
        { market := slice buf 8 32
          resolution := slice buf 40 32
          statement := Utf8.decode (slice buf 76 statementLen)
          validatorProgram := slice buf off 32
          merkleRoot := Hex.encode (slice buf (off + 32) 32)
          outcome := if outcomeBool = 0 then "yes" else if outcomeBool = 1 then "no" else "void"
          outcomeBool
          proofHash := Hex.encode (slice buf (off + 65) 32)
          resolver := slice buf (off + 97) 32
          timestamp := Double.ofInt (decodeI64 (slice buf (off + 129) 8)).toInt
          validatedOnChain := buf.getD (off + 137) 0 ≠ 0 }

/-- `trim()` -/
def trim (s : List Char) : List Char :=
  let space (c : Char) : Bool := c.toNat < 2 ^ 16 && Normalizer.isSpace c.toNat.toUInt16
  (s.dropWhile space).rdropWhile space

def parseLog (log : List Char) : Option ParsedMarketResolved :=
  if dataMark <+: log then parseEvent (Base64.decode (trim (log.drop dataMark.length))) else none

def parseMarketResolvedFromLogs (logs : List (List Char)) : Option ParsedMarketResolved :=
  logs.findSome? parseLog

/-- The program's key in `packages/sdk/src/programIds.ts`. -/
def settlementProgramText : List Char := "5vCo4bXgUJrDiYLs8Lg4s5CGp1D9CBCBr5WsKCUnkLcF".toList

structure ProofResponse where
  statement : List Char
  merkleRoot : List Char
  outcome : String
  outcomeBool : UInt8
  validatorProgram : Bytes
  resolver : Bytes
  timestamp : ℤ
  validatedOnChain : Bool
deriving DecidableEq

def ParsedMarketResolved.response (p : ParsedMarketResolved) : ProofResponse :=
  { p with }

/-- What one transaction contributes. -/
def proofIn (market : Pubkey) (tx : Transaction) : Option ProofResponse :=
  if tx.err then none
  else
    match tx.logMessages with
    | none => none
    | some logs =>
      if logs.any fun log => settlementProgramText <:+: log then
        match parseMarketResolvedFromLogs logs with
        | some resolved => if resolved.market = market.bytes then some resolved.response else none
        | none => none
      else none

/-- The signature and the fields of an `ok` answer. The history has its newest transaction first;
`limit` is that of `getSignaturesForAddress`. -/
def get (market : Pubkey) (history : List Transaction) : Option (String × ProofResponse) :=
  let limit := 20
  (history.take limit).findSome? fun tx => (proofIn market tx).map fun fields =>
    (tx.signature, fields)

/-! ## Which bytes are read as an event -/

def RawEvent.parsed (e : RawEvent) : ParsedMarketResolved where
  market := e.market.bytes
  resolution := e.resolution.bytes
  statement := Utf8.decode e.statement
  validatorProgram := e.validatorProgram.bytes
  merkleRoot := Hex.encode e.merkleRoot.1
  outcome := if e.outcome = 0 then "yes" else if e.outcome = 1 then "no" else "void"
  outcomeBool := e.outcome
  proofHash := Hex.encode e.proofHash.1
  resolver := e.resolver.bytes
  timestamp := Double.ofInt e.timestamp.toInt
  validatedOnChain := e.validatedOnChain ≠ 0

theorem RawEvent.length_encode (e : RawEvent) : e.encode.length = 214 + e.statement.length := by
  simp only [encode, List.length_append, e.market.size, e.resolution.size,
    e.validatorProgram.size, e.resolver.size, e.merkleRoot.2, e.proofHash.2, length_encodeI64,
    LittleEndian.length_encode, marketResolvedDiscriminator, List.length_cons, List.length_nil]
  omega

theorem parseEvent_encode (e : RawEvent) (rest : Bytes) :
    parseEvent (e.encode ++ rest) = some e.parsed := by
  have hsize := e.statementSize
  have hlength : (e.encode ++ rest).length = 214 + e.statement.length + rest.length := by
    rw [List.length_append, e.length_encode]
  have h0 : (e.encode ++ rest).drop 0 = marketResolvedDiscriminator ++ (e.market.bytes ++
      (e.resolution.bytes ++ (LittleEndian.encode 4 e.statement.length ++ (e.statement ++
        (e.validatorProgram.bytes ++ (e.merkleRoot.1 ++ ([e.outcome] ++ (e.proofHash.1 ++
          (e.resolver.bytes ++ (encodeI64 e.timestamp ++ ([e.validatedOnChain] ++ rest)))))))))))
      := by
    simp only [RawEvent.encode, List.drop_zero, List.append_assoc]
  obtain ⟨hdisc, h8⟩ := read_field h0 (n := 8) rfl
  obtain ⟨hmarket, h40⟩ := read_field h8 e.market.size
  obtain ⟨hresolution, h72⟩ := read_field h40 e.resolution.size
  obtain ⟨hcount, h76⟩ := read_field h72 (LittleEndian.length_encode 4 _)
  obtain ⟨hstatement, hoff⟩ := read_field h76 rfl
  obtain ⟨hvalidator, hroot⟩ := read_field hoff e.validatorProgram.size
  obtain ⟨hrootBytes, houtcome⟩ := read_field hroot e.merkleRoot.2
  have houtcomeByte := getD_of_drop houtcome 0
  obtain ⟨-, hproof⟩ := read_field houtcome (n := 1) rfl
  obtain ⟨hproofBytes, hresolver⟩ := read_field hproof e.proofHash.2
  obtain ⟨hresolverBytes, htime⟩ := read_field hresolver e.resolver.size
  obtain ⟨htimeBytes, hflag⟩ := read_field htime (length_encodeI64 _)
  have hflagByte := getD_of_drop hflag 0
  have hlen : decode (slice (e.encode ++ rest) 72 4) = e.statement.length := by
    show decode (slice _ (0 + 8 + 32 + 32) 4) = _
    rw [hcount, decode_encode 4 _ hsize]
  have hshape : ¬ ((e.encode ++ rest).length < 8 + 32 + 32 + 4 ∨
      (e.encode ++ rest).take 8 ≠ marketResolvedDiscriminator) := by
    rintro (hshort | hother)
    · omega
    · exact hother hdisc
  have hlong : ¬ (e.encode ++ rest).length <
      76 + e.statement.length + 32 + 32 + 1 + 32 + 32 + 8 + 1 := by
    omega
  rw [parseEvent, if_neg hshape]
  simp only [hlen, if_neg hlong]
  have hname := congrArg (fun b : UInt8 => if b = 0 then "yes" else if b = 1 then "no" else "void")
    houtcomeByte
  have htime' : decodeI64 (slice (e.encode ++ rest) (76 + e.statement.length + 129) 8) =
      e.timestamp :=
    (congrArg decodeI64 htimeBytes).trans (decodeI64_encodeI64 _)
  exact congrArg some ((ParsedMarketResolved.mk.injEq ..).mpr ⟨hmarket, hresolution,
    congrArg Utf8.decode hstatement, hvalidator, congrArg Hex.encode hrootBytes, hname,
    houtcomeByte, congrArg Hex.encode hproofBytes, hresolverBytes,
    congrArg (fun t : Int64 => Double.ofInt t.toInt) htime',
    congrArg (fun b : UInt8 => decide (b ≠ 0)) hflagByte⟩)

/-- Bytes of the length and with the mark are those of an event and what follows. -/
theorem exists_encode {buf : Bytes} (hshape : ¬ (buf.length < 8 + 32 + 32 + 4 ∨
      buf.take 8 ≠ marketResolvedDiscriminator))
    (hlong : ¬ buf.length < 76 + decode (slice buf 72 4) + 32 + 32 + 1 + 32 + 32 + 8 + 1) :
    ∃ (e : RawEvent) (rest : Bytes), buf = e.encode ++ rest := by
  obtain ⟨hshort, hmark⟩ := not_or.mp hshape
  have hn : decode (slice buf 72 4) < 2 ^ 32 := by
    have hlt := decode_lt (slice buf 72 4)
    rwa [length_slice (by omega)] at hlt
  generalize hlen : decode (slice buf 72 4) = n at hn hlong
  have hcount : LittleEndian.encode 4 n = slice buf 72 4 := by
    have h := encode_decode (slice buf 72 4)
    rwa [length_slice (by omega), hlen] at h
  have hbyte (a b : ℕ) (hb : a + 1 = b) (ha : a < buf.length) :
      [buf.getD a 0] ++ buf.drop b = buf.drop a := by
    rw [← hb, List.drop_eq_getElem_cons ha, List.getD_eq_getElem?_getD, List.getElem?_eq_getElem ha]
    rfl
  have hfield (a k b : ℕ) (hb : a + k = b) : slice buf a k ++ buf.drop b = buf.drop a := by
    rw [← hb]
    exact (drop_eq_slice buf a k).symm
  refine ⟨
    { market := ⟨slice buf 8 32, length_slice (by omega)⟩
      resolution := ⟨slice buf 40 32, length_slice (by omega)⟩
      statement := slice buf 76 n
      statementSize := by rwa [length_slice (by omega)]
      validatorProgram := ⟨slice buf (76 + n) 32, length_slice (by omega)⟩
      merkleRoot := ⟨slice buf (108 + n) 32, length_slice (by omega)⟩
      outcome := buf.getD (140 + n) 0
      proofHash := ⟨slice buf (141 + n) 32, length_slice (by omega)⟩
      resolver := ⟨slice buf (173 + n) 32, length_slice (by omega)⟩
      timestamp := decodeI64 (slice buf (205 + n) 8)
      validatedOnChain := buf.getD (213 + n) 0 }, buf.drop (214 + n), ?_⟩
  simp only [RawEvent.encode, List.append_assoc]
  rw [encodeI64_decodeI64 (length_slice (by omega)), length_slice (show 76 + n ≤ _ by omega),
    hcount, hbyte (213 + n) _ (by omega) (by omega), hfield (205 + n) 8 _ (by omega),
    hfield (173 + n) 32 _ (by omega),
    hfield (141 + n) 32 _ (by omega), hbyte (140 + n) _ (by omega) (by omega),
    hfield (108 + n) 32 _ (by omega),
    hfield (76 + n) 32 _ (by omega), hfield 76 n _ rfl, hfield 72 4 _ rfl, hfield 40 32 _ rfl,
    hfield 8 32 _ rfl, ← not_not.mp hmark, List.take_append_drop]

theorem parseEvent_eq_some {buf : Bytes} {p : ParsedMarketResolved} :
    parseEvent buf = some p ↔
      ∃ (e : RawEvent) (rest : Bytes), buf = e.encode ++ rest ∧ e.parsed = p := by
  constructor
  · intro h
    rw [parseEvent] at h
    split at h
    · cases h
    · rename_i hshape
      simp only at h
      split at h
      · cases h
      · rename_i hlong
        obtain ⟨e, rest, hbuf⟩ := exists_encode hshape hlong
        have hparsed := parseEvent_encode e rest
        rw [← hbuf, parseEvent, if_neg hshape] at hparsed
        simp only [if_neg hlong] at hparsed
        exact ⟨e, rest, hbuf, Option.some.inj (hparsed.symm.trans h)⟩
  · rintro ⟨e, rest, rfl, rfl⟩
    exact parseEvent_encode e rest

/-! ## Which lines are read as an event -/

theorem toNat_lt_of_significant {c : Char} (h : Base64.Significant c = true) : c.toNat < 128 := by
  rw [Base64.Significant, Bool.or_eq_true, decide_eq_true_eq] at h
  rcases h with rfl | h
  · decide
  · unfold Base64.value at h
    split at h
    · rename_i hupper
      exact lt_of_le_of_lt hupper.2 (by decide)
    · split at h
      · rename_i hlower
        exact lt_of_le_of_lt hlower.2 (by decide)
      · split at h
        · rename_i hdigit
          exact lt_of_le_of_lt hdigit.2 (by decide)
        · split at h
          · rename_i hplus
            rcases hplus with rfl | rfl <;> decide
          · split at h
            · rename_i hslash
              rcases hslash with rfl | rfl <;> decide
            · cases h

theorem not_significant_of_space {c : Char}
    (h : (c.toNat < 2 ^ 16 && Normalizer.isSpace c.toNat.toUInt16) = true) :
    Base64.Significant c = false := by
  have hall : ∀ n < 128, Normalizer.isSpace (Nat.toUInt16 n) = true →
      Base64.Significant (Char.ofNat n) = false := by decide
  by_contra hc
  have hlt := toNat_lt_of_significant (Bool.not_eq_false _ ▸ hc)
  have hspace := hall c.toNat hlt (Bool.and_eq_true_iff.mp h).2
  rw [Char.ofNat_toNat] at hspace
  exact hc hspace

theorem decode_trim (s : List Char) : Base64.decode (trim s) = Base64.decode s := by
  rw [← Base64.decode_filter, ← Base64.decode_filter s]
  unfold trim
  simp only [List.rdropWhile, List.filter_reverse,
    Base64.filter_dropWhile (fun _ => not_significant_of_space), List.reverse_reverse]

theorem parseLog_data (program : Pubkey) (fields : List Bytes) :
    parseLog (LogLine.data program fields).text = parseEvent (Base64.joined fields) := by
  have hspace : Base64.decode (' ' :: [' '].intercalate (fields.map Base64.encode)) =
      Base64.decode ([' '].intercalate (fields.map Base64.encode)) := rfl
  rw [parseLog, LogLine.text, if_pos (List.prefix_append _ _), List.drop_left, decode_trim, hspace,
    Base64.decode_intercalate]

/-- The data of the line begin with the event. -/
def LogLine.Carries (l : LogLine) (e : RawEvent) : Prop :=
  ∃ program fields rest, l = .data program fields ∧ Base64.joined fields = e.encode ++ rest

theorem parseLog_eq_some {l : LogLine} {p : ParsedMarketResolved} :
    parseLog l.text = some p ↔ ∃ e, l.Carries e ∧ e.parsed = p := by
  cases l with
  | data program fields =>
    rw [parseLog_data, parseEvent_eq_some]
    constructor
    · rintro ⟨e, rest, hbytes, hp⟩
      exact ⟨e, ⟨program, fields, rest, rfl, hbytes⟩, hp⟩
    · rintro ⟨e, ⟨_, _, rest, ⟨⟩, hbytes⟩, hp⟩
      exact ⟨e, rest, hbytes, hp⟩
  | other text h =>
    rw [parseLog, LogLine.text, if_neg h]
    constructor
    · intro h
      cases h
    · rintro ⟨e, ⟨_, _, _, ⟨⟩, -⟩, -⟩

theorem parseLog_eq_none {l : LogLine} : parseLog l.text = none ↔ ∀ e, ¬ l.Carries e := by
  rw [Option.eq_none_iff_forall_not_mem]
  constructor
  · intro h e he
    exact h _ (parseLog_eq_some.mpr ⟨e, he, rfl⟩)
  · intro h p hp
    obtain ⟨e, he, -⟩ := parseLog_eq_some.mp hp
    exact h e he

/-! ## What a transaction contributes -/

/-- The first line that the node kept and that carries an event carries this one. -/
def Transaction.First (tx : Transaction) (e : RawEvent) : Prop :=
  ∃ pre l post, tx.kept = pre ++ l :: post ∧ l.Carries e ∧ ∀ x ∈ pre, ∀ e', ¬ x.Carries e'

/-- Some line of the log has the key of the settlement program in it. -/
def Transaction.Mentions (tx : Transaction) : Prop :=
  ∃ logs, tx.logMessages = some logs ∧ ∃ log ∈ logs, settlementProgramText <:+: log

theorem parseMarketResolvedFromLogs_eq_some {tx : Transaction} {logs : List (List Char)}
    {p : ParsedMarketResolved} (hlogs : tx.logMessages = some logs) :
    parseMarketResolvedFromLogs logs = some p ↔ ∃ e, tx.First e ∧ e.parsed = p := by
  obtain ⟨n, hn, rfl⟩ := Option.map_eq_some_iff.mp hlogs
  have hkept : tx.kept = tx.lines.take n := by rw [Transaction.kept, hn]
  have hmarker : List.findSome? parseLog
      (if n < tx.lines.length then ["Log truncated".toList] else []) = none := by
    split <;> rfl
  rw [parseMarketResolvedFromLogs, List.findSome?_append, hmarker, Option.or_none,
    List.findSome?_map, List.findSome?_eq_some_iff]
  constructor
  · rintro ⟨pre, l, post, hlines, hl, hpre⟩
    obtain ⟨e, he, hp⟩ := parseLog_eq_some.mp hl
    refine ⟨e, ⟨pre, l, post, hkept.trans hlines, he, fun x hx => ?_⟩, hp⟩
    exact parseLog_eq_none.mp (hpre x hx)
  · rintro ⟨e, ⟨pre, l, post, hlines, he, hpre⟩, hp⟩
    refine ⟨pre, l, post, hkept.symm.trans hlines, parseLog_eq_some.mpr ⟨e, he, hp⟩, fun x hx => ?_⟩
    exact parseLog_eq_none.mpr (hpre x hx)

/-- A successful transaction whose log mentions the settlement program and whose first event is
this one, of the market. -/
structure Names (market : Pubkey) (tx : Transaction) (e : RawEvent) : Prop where
  succeeded : tx.err = false
  mentions : tx.Mentions
  first : tx.First e
  ofMarket : e.market = market

theorem proofIn_eq_some {market : Pubkey} {tx : Transaction} {fields : ProofResponse} :
    proofIn market tx = some fields ↔ ∃ e, Names market tx e ∧ e.parsed.response = fields := by
  have hkey (e : RawEvent) : e.parsed.market = market.bytes ↔ e.market = market :=
    Pubkey.bytes_inj
  constructor
  · intro h
    unfold proofIn at h
    split at h
    · cases h
    · rename_i herr
      split at h
      · cases h
      · rename_i logs hlogs
        split at h
        · rename_i hmention
          split at h
          · rename_i resolved hparse
            split at h
            · rename_i hmarket
              obtain ⟨e, hfirst, rfl⟩ := (parseMarketResolvedFromLogs_eq_some hlogs).mp hparse
              obtain ⟨log, hlog, hin⟩ := List.any_eq_true.mp hmention
              exact ⟨e, ⟨Bool.not_eq_true _ ▸ herr, ⟨logs, hlogs, log, hlog,
                of_decide_eq_true hin⟩, hfirst, (hkey e).mp hmarket⟩, Option.some.inj h⟩
            · cases h
          · cases h
        · cases h
  · rintro ⟨e, ⟨herr, ⟨logs, hlogs, log, hlog, hin⟩, hfirst, hmarket⟩, rfl⟩
    have hany : (logs.any fun log => settlementProgramText <:+: log) = true :=
      List.any_eq_true.mpr ⟨log, hlog, decide_eq_true hin⟩
    have hparse := (parseMarketResolvedFromLogs_eq_some hlogs).mpr ⟨e, hfirst, rfl⟩
    rw [proofIn, herr, if_neg Bool.false_ne_true]
    simp only [hlogs, hany, hparse, if_true, if_pos ((hkey e).mpr hmarket)]

/-! ## What the route answers -/

/-- Of the twenty newest transactions, the newest that names the market names it with this event. -/
def Newest (market : Pubkey) (history : List Transaction) (e : RawEvent) (signature : String) :
    Prop :=
  ∃ newer tx older, history.take 20 = newer ++ tx :: older ∧ Names market tx e ∧
    tx.signature = signature ∧ ∀ t ∈ newer, ∀ e', ¬ Names market t e'

theorem get_eq_some {market : Pubkey} {history : List Transaction} {signature : String}
    {fields : ProofResponse} :
    get market history = some (signature, fields) ↔
      ∃ e, Newest market history e signature ∧ e.parsed.response = fields := by
  have hnone (t : Transaction) : ((proofIn market t).map fun f => (t.signature, f)) = none ↔
      ∀ e, ¬ Names market t e := by
    rw [Option.map_eq_none_iff, Option.eq_none_iff_forall_not_mem]
    constructor
    · intro h e he
      exact h _ (proofIn_eq_some.mpr ⟨e, he, rfl⟩)
    · intro h f hf
      obtain ⟨e, he, -⟩ := proofIn_eq_some.mp hf
      exact h e he
  rw [get, List.findSome?_eq_some_iff]
  constructor
  · rintro ⟨newer, tx, older, hhistory, htx, hnewer⟩
    obtain ⟨f, hf, hpair⟩ := Option.map_eq_some_iff.mp htx
    cases hpair
    obtain ⟨e, he, hresponse⟩ := proofIn_eq_some.mp hf
    exact ⟨e, ⟨newer, tx, older, hhistory, he, rfl, fun t ht => (hnone t).mp (hnewer t ht)⟩,
      hresponse⟩
  · rintro ⟨e, ⟨newer, tx, older, hhistory, he, rfl, hnewer⟩, rfl⟩
    refine ⟨newer, tx, older, hhistory, ?_, fun t ht => (hnone t).mpr (hnewer t ht)⟩
    rw [proofIn_eq_some.mpr ⟨e, he, rfl⟩]
    rfl

/-! ## What the settlement program emitted -/

/-- The fields of an answer that says what the event says. -/
def MarketResolved.fields (e : MarketResolved) : ProofResponse where
  statement := e.statement.toList
  merkleRoot := Hex.encode e.merkleRoot.1
  outcome := if e.outcome = 0 then "yes" else if e.outcome = 1 then "no" else "void"
  outcomeBool := e.outcome
  validatorProgram := e.validatorProgram.bytes
  resolver := e.resolver.bytes
  timestamp := e.timestamp.toInt
  validatedOnChain := e.validatedOnChain

/-- In a successful transaction of the history the settlement program itself emitted the event. -/
def Emitted (market : Pubkey) (history : List Transaction) (e : MarketResolved) : Prop :=
  e.market = market ∧ ∃ tx ∈ history, tx.err = false ∧
    .data settlementProgramId [e.raw.encode] ∈ tx.lines

/-- The bytes of `e` say of a resolution what the event `o` says. -/
structure RawEvent.SaysOf (e : RawEvent) (o : MarketResolved) : Prop where
  statement : Utf8.decode e.statement = o.statement.toList
  merkleRoot : e.merkleRoot = o.merkleRoot
  outcome : e.outcome = o.outcome
  validatorProgram : e.validatorProgram = o.validatorProgram
  resolver : e.resolver = o.resolver
  timestamp : Double.ofInt e.timestamp.toInt = o.timestamp.toInt
  validatedOnChain : e.validatedOnChain ≠ 0 ↔ o.validatedOnChain = true

theorem saysOf_iff {e : RawEvent} {o : MarketResolved} :
    e.parsed.response = o.fields ↔ e.SaysOf o := by
  constructor
  · intro h
    obtain ⟨hstatement, hroot, -, houtcome, hvalidator, hresolver, htime, hflag⟩ :=
      (ProofResponse.mk.injEq ..).mp h
    have hbytes := congrArg Hex.decode hroot
    rw [RawEvent.parsed, Hex.decode_encode, Hex.decode_encode] at hbytes
    exact ⟨hstatement, Subtype.ext hbytes, houtcome, Pubkey.bytes_inj.mp hvalidator,
      Pubkey.bytes_inj.mp hresolver, htime,
      decide_eq_true_iff.symm.trans (Bool.eq_iff_iff.mp hflag)⟩
  · rintro ⟨hstatement, hroot, houtcome, hvalidator, hresolver, htime, hflag⟩
    refine (ProofResponse.mk.injEq ..).mpr ⟨hstatement, ?_, ?_, houtcome, ?_, ?_, htime, ?_⟩
    · rw [RawEvent.parsed, hroot]
    · rw [RawEvent.parsed, houtcome]
    · rw [RawEvent.parsed, hvalidator]
    · rw [RawEvent.parsed, hresolver]
    · exact Bool.eq_iff_iff.mpr (decide_eq_true_iff.trans hflag)

theorem MarketResolved.saysOf (o : MarketResolved) (h : o.timestamp.toInt.natAbs < 2 ^ 53) :
    o.raw.SaysOf o := by
  refine ⟨Utf8.decode_encode _, rfl, rfl, rfl, rfl, Double.ofInt_of_natAbs_lt h, ?_⟩
  show (if o.validatedOnChain then (1 : UInt8) else 0) ≠ 0 ↔ _
  cases o.validatedOnChain <;> decide

/-- Either the newest transaction that names the market does so with what the settlement program
emitted, and all it emitted, or there is no such transaction and nothing was emitted. -/
def DecidedByReceipt (market : Pubkey) (history : List Transaction) : Prop :=
  (∃ e signature o, Newest market history e signature ∧ Emitted market history o ∧ e.SaysOf o ∧
    ∀ o', Emitted market history o' → o'.fields = o.fields) ∨
  ((∀ e signature, ¬ Newest market history e signature) ∧ ∀ o, ¬ Emitted market history o)

/-- **Soundness and completeness of the route.** The route answers with the fields of the emitted
events, and with no others, exactly when the deciding line is that of the receipt. -/
theorem proof_route_iff (market : Pubkey) (history : List Transaction) :
    (∀ fields, (∃ signature, get market history = some (signature, fields)) ↔
      ∃ o, Emitted market history o ∧ o.fields = fields) ↔
    DecidedByReceipt market history := by
  constructor
  · intro h
    by_cases hnewest : ∃ e signature, Newest market history e signature
    · obtain ⟨e, signature, he⟩ := hnewest
      have hget := get_eq_some.mpr ⟨e, he, rfl⟩
      obtain ⟨o, ho, hfields⟩ := (h e.parsed.response).mp ⟨signature, hget⟩
      refine .inl ⟨e, signature, o, he, ho, saysOf_iff.mp hfields.symm, fun o' ho' => ?_⟩
      obtain ⟨signature', hget'⟩ := (h o'.fields).mpr ⟨o', ho', rfl⟩
      have hsame := Option.some.inj (hget'.symm.trans hget)
      exact (congrArg Prod.snd hsame).trans hfields.symm
    · refine .inr ⟨fun e signature he => hnewest ⟨e, signature, he⟩, fun o ho => ?_⟩
      obtain ⟨signature, hget⟩ := (h o.fields).mpr ⟨o, ho, rfl⟩
      obtain ⟨e, he, -⟩ := get_eq_some.mp hget
      exact hnewest ⟨e, signature, he⟩
  · rintro (⟨e, signature, o, he, ho, hsays, hall⟩ | ⟨hnone, hnothing⟩) fields
    · have hget := get_eq_some.mpr ⟨e, he, saysOf_iff.mpr hsays⟩
      constructor
      · rintro ⟨signature', hget'⟩
        have hsame := Option.some.inj (hget.symm.trans hget')
        exact ⟨o, ho, congrArg Prod.snd hsame⟩
      · rintro ⟨o', ho', rfl⟩
        rw [hall o' ho']
        exact ⟨signature, hget⟩
    · constructor
      · rintro ⟨signature, hget⟩
        obtain ⟨e, he, -⟩ := get_eq_some.mp hget
        exact absurd he (hnone e signature)
      · rintro ⟨o, ho, -⟩
        exact absurd ho (hnothing o)

/-- A receipt is shown if nothing else that looks like one comes before it: the transaction is one
of the twenty newest, in its log the line of the settlement program is the first event, and no newer
transaction names the market. -/
theorem get_of_resolution {market : Pubkey} {history newer older : List Transaction}
    {tx : Transaction} {o : MarketResolved} {pre post : List LogLine}
    (hhistory : history.take 20 = newer ++ tx :: older) (herr : tx.err = false)
    (hmentions : tx.Mentions)
    (hkept : tx.kept = pre ++ .data settlementProgramId [o.raw.encode] :: post)
    (hpre : ∀ x ∈ pre, ∀ e, ¬ x.Carries e) (hmarket : o.market = market)
    (hnewer : ∀ t ∈ newer, ∀ e, ¬ Names market t e)
    (htime : o.timestamp.toInt.natAbs < 2 ^ 53) :
    get market history = some (tx.signature, o.fields) := by
  have hcarries : (LogLine.data settlementProgramId [o.raw.encode]).Carries o.raw := by
    refine ⟨_, _, [], rfl, ?_⟩
    rw [Base64.joined_singleton, List.append_nil]
  exact get_eq_some.mpr ⟨o.raw, ⟨newer, tx, older, hhistory,
    ⟨herr, hmentions, ⟨pre, _, post, hkept, hcarries, hpre⟩, hmarket⟩, rfl, hnewer⟩,
    saysOf_iff.mpr (o.saysOf htime)⟩

namespace Sample

/-- A program that logs what it likes. -/
def forger : Pubkey := ⟨List.replicate 32 7, rfl⟩

def market : Pubkey := ⟨List.replicate 32 (.ofNat 1), rfl⟩

def forged : MarketResolved where
  market := market
  resolution := ⟨List.replicate 32 2, rfl⟩
  statement := "BTC/USD >= 65000"
  statementSize := by decide +kernel
  validatorProgram := ⟨List.replicate 32 3, rfl⟩
  merkleRoot := ⟨List.replicate 32 4, rfl⟩
  outcome := 0
  proofHash := ⟨List.replicate 32 4, rfl⟩
  resolver := ⟨List.replicate 32 5, rfl⟩
  timestamp := 1700001005
  validatedOnChain := true

/-- The forger writes the key of the settlement program and the bytes of an event. -/
def forgery : Transaction where
  signature := "forgery"
  err := false
  lines :=
    [.other "Program log: 5vCo4bXgUJrDiYLs8Lg4s5CGp1D9CBCBr5WsKCUnkLcF".toList (by decide),
      .data forger [forged.raw.encode]]
  recorded := some 2

end Sample

/-- An answer about a market that was never resolved. -/
theorem forged_proof_shown : ∃ market history signature fields,
    get market history = some (signature, fields) ∧ ∀ o, ¬ Emitted market history o := by
  refine ⟨Sample.market, [Sample.forgery], "forgery", Sample.forged.raw.parsed.response, ?_, ?_⟩
  · have hcarries : (LogLine.data Sample.forger [Sample.forged.raw.encode]).Carries
        Sample.forged.raw := by
      refine ⟨_, _, [], rfl, ?_⟩
      rw [Base64.joined_singleton, List.append_nil]
    refine get_eq_some.mpr ⟨_, ⟨[], Sample.forgery, [], rfl, ⟨rfl, ?_, ?_, rfl⟩, rfl, ?_⟩, rfl⟩
    · exact ⟨_, rfl, _, .head _, by decide⟩
    · refine ⟨[_], _, [], rfl, hcarries, ?_⟩
      rintro x hx e ⟨_, _, _, rfl, -⟩
      cases List.mem_singleton.mp hx
    · intro t ht
      cases ht
  · rintro o ⟨-, tx, htx, -, hline⟩
    cases List.mem_singleton.mp htx
    have hforger : settlementProgramId ≠ Sample.forger := by decide
    rcases List.mem_cons.mp hline with h | h
    · cases h
    · exact hforger (LogLine.data.inj (List.mem_singleton.mp h)).1

end Stoppage.Web

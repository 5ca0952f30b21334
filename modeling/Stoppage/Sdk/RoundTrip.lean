import Stoppage.Sdk.Normalizer
import Stoppage.Sdk.Identity
import Stoppage.Sdk.ParseExact

/-! # A predicate stored and parsed

`padString` cuts the bytes of a string at its number of code units, so a string with a character of
more than one byte loses its end, and parsing gives the replacement character for a character that
was cut. `Survives` are the strings that come back.
-/

namespace Stoppage.Escrow
open LittleEndian Fallible Padding Sdk
set_option autoImplicit false

/-! ## Strings -/

/-- The strings that come back out of a field that holds their bytes: ASCII that does not end in
NUL, and ASCII with one replacement character at its end, which is cut and replaced by itself. -/
def Survives (s : JsString) : Prop :=
  Utf16.Ascii s ∧ s.getLast? ≠ some 0 ∨ ∃ a, Utf16.Ascii a ∧ s = a ++ [0xFFFD]

theorem Survives.ascii {s : JsString} (h : Utf16.Ascii s) : Survives s ↔ s.getLast? ≠ some 0 := by
  constructor
  · rintro (⟨-, hlast⟩ | ⟨a, -, rfl⟩)
    · exact hlast
    · rw [List.getLast?_concat]
      decide
  · exact fun hlast => .inl ⟨h, hlast⟩

theorem ofChars_zeros (n : ℕ) :
    Utf16.ofChars (List.replicate n Utf8.nul) = List.replicate n 0 := by
  induction n with
  | zero => rfl
  | succ n ih =>
    rw [List.replicate_succ, List.replicate_succ, ← ih]
    rfl

theorem textOf_whole (cs : List Char) (n : ℕ) :
    textOf (Utf8.encode cs ++ List.replicate n 0) = trim 0 (Utf16.ofChars cs) := by
  rw [textOf, Utf16.decode, Utf8.decode_encode_append, Utf8.decode_zeros, Utf16.ofChars_append,
    ofChars_zeros, trim_append_replicate]

theorem textOf_cut (cs : List Char) (c : Char) {k : ℕ} (hpos : 0 < k)
    (hk : k < (String.utf8EncodeChar c).length) (n : ℕ) :
    textOf (Utf8.encode cs ++ (String.utf8EncodeChar c).take k ++ List.replicate n 0) =
      Utf16.ofChars cs ++ [0xFFFD] := by
  have hunits : Utf16.ofChars (cs ++ Utf8.replacement :: List.replicate n Utf8.nul) =
      (Utf16.ofChars cs ++ [0xFFFD]) ++ List.replicate n 0 := by
    rw [Utf16.ofChars_append, ← ofChars_zeros, List.append_assoc]
    rfl
  rw [textOf, Utf16.decode, List.append_assoc, Utf8.decode_encode_append,
    Utf8.decode_cut_append c hpos hk, hunits, trim_append_replicate,
    trim_concat_of_ne _ (by decide)]

theorem length_ofChars_le (cs : List Char) :
    (Utf16.ofChars cs).length ≤ (Utf8.encode cs).length ∧
      ((Utf8.encode cs).length = (Utf16.ofChars cs).length ↔ Utf16.Ascii (Utf16.ofChars cs)) := by
  have h := Utf16.length_encode (Utf16.ofChars cs)
  rwa [Utf16.encode_ofChars] at h

/-- A field that is wide enough for the units is filled with as many bytes as there are. -/
theorem padString_wide {s : JsString} {len : ℕ} (h : s.length ≤ len) :
    (padString s len).1 = (Utf16.encode s).take s.length ++
      List.replicate (len - ((Utf16.encode s).take s.length).length) 0 := by
  show pad 0 len (kept s len) = _
  rw [kept, min_eq_left h, pad]

theorem textOf_padString_ascii {s : JsString} {len : ℕ} (h : s.length ≤ len)
    (hascii : Utf16.Ascii s) : textOf (padString s len).1 = trim 0 s := by
  have hlength := (Utf16.length_encode s).2.mpr hascii
  rw [padString_wide h, ← hlength, List.take_length, Utf16.encode, textOf_whole,
    hascii.ofChars_toChars]

/-- A string that is not ASCII comes back only if all it loses is the rest of a replacement
character. -/
theorem ascii_of_textOf_eq {s : JsString} {len : ℕ} (h : s.length ≤ len)
    (hnot : ¬ Utf16.Ascii s) (hsame : textOf (padString s len).1 = s) :
    ∃ a, Utf16.Ascii a ∧ s = a ++ [0xFFFD] := by
  obtain ⟨hle, hiff⟩ := Utf16.length_encode s
  have hlt : s.length < (Utf8.encode (Utf16.toChars s)).length :=
    lt_of_le_of_ne hle fun heq => hnot (hiff.mp heq.symm)
  obtain ⟨front, c, back, k, hchars, hk, hlength, htake⟩ := Utf8.exists_cut _ hlt
  obtain ⟨hfront, hfrontiff⟩ := length_ofChars_le front
  rw [padString_wide h, Utf16.encode, htake] at hsame
  by_cases hzero : k = 0
  · -- The cut is between two characters: the rest of the string is missing.
    rw [hzero, List.take_zero, List.append_nil, textOf_whole] at hsame
    obtain ⟨n, hn⟩ := exists_eq_trim_append (z := 0) (Utf16.ofChars front)
    have hcount := congrArg List.length hn
    rw [hsame, List.length_append, List.length_replicate] at hcount
    have hn0 : n = 0 := by omega
    rw [hsame, hn0, List.replicate_zero, List.append_nil] at hn
    have hall := Utf16.toChars_ofChars front
    rw [hn, hchars] at hall
    exact absurd (congrArg List.length hall) (by simp)
  · rw [textOf_cut front c (Nat.pos_of_ne_zero hzero) hk] at hsame
    have hcount := congrArg List.length hsame
    rw [List.length_append, List.length_singleton] at hcount
    exact ⟨_, hfrontiff.mp (by omega), hsame.symm⟩

theorem textOf_padString_iff {s : JsString} {len : ℕ} (h : s.length ≤ len) :
    textOf (padString s len).1 = s ↔ Survives s := by
  by_cases hascii : Utf16.Ascii s
  · rw [textOf_padString_ascii h hascii, trim_eq_self_iff, Survives.ascii hascii]
  · constructor
    · exact fun hsame => .inr (ascii_of_textOf_eq h hascii hsame)
    · rintro (⟨hs, -⟩ | ⟨a, ha, rfl⟩)
      · exact absurd hs hascii
      · have hwhole : a ++ [0xFFFD] =
            Utf16.ofChars (Utf16.toChars a ++ [Utf8.replacement]) := by
          rw [Utf16.ofChars_append, ha.ofChars_toChars]
          rfl
        have hbytes : Utf16.encode (a ++ [0xFFFD]) =
            Utf16.encode a ++ String.utf8EncodeChar Utf8.replacement := by
          rw [hwhole, Utf16.encode_ofChars, Utf8.encode_append]
          rfl
        have hlength := (Utf16.length_encode a).2.mpr ha
        have htake : (Utf16.encode (a ++ [0xFFFD])).take (a ++ [0xFFFD]).length =
            Utf8.encode (Utf16.toChars a) ++ (String.utf8EncodeChar Utf8.replacement).take 1 := by
          rw [hbytes, List.length_append, List.length_singleton, ← hlength,
            List.take_length_add_append]
          rfl
        rw [padString_wide h, htake, textOf_cut _ _ Nat.one_pos (by decide), ha.ofChars_toChars]

theorem length_textOf_le (buf : Bytes) : (textOf buf).length ≤ buf.length :=
  (List.rdropWhile_prefix _ _).length_le.trans (Utf16.length_decode_le buf)

/-- **Which strings come back.** -/
theorem textOf_padString_eq_iff {s : JsString} {len : ℕ} :
    textOf (padString s len).1 = s ↔ s.length ≤ len ∧ Survives s := by
  constructor
  · intro hsame
    have hlength := length_textOf_le (padString s len).1
    rw [hsame, (padString s len).2] at hlength
    exact ⟨hlength, (textOf_padString_iff hlength).mp hsame⟩
  · rintro ⟨hlength, hsurvives⟩
    exact (textOf_padString_iff hlength).mpr hsurvives

/-! ## Predicates -/

/-- The 64-bit word of the number of a predicate is a double. -/
def MarketPredicate.ExactWord (p : MarketPredicate) : Prop :=
  Double.ofNat (UInt64.ofInt p.number.num).toNat = (UInt64.ofInt p.number.num).toNat

instance (p : MarketPredicate) : Decidable p.ExactWord := inferInstanceAs (Decidable (_ = _))

theorem exactWord_of_le {p : MarketPredicate} {n : ℕ} (hnumber : p.number = n) (hn : n ≤ 2 ^ 53) :
    p.ExactWord := by
  have hword : (UInt64.ofInt p.number.num).toNat = n := by
    have hnum : p.number.num = (n : ℤ) := by
      rw [hnumber]
      exact Rat.num_natCast n
    have hmod := toNat_ofInt (n : ℤ)
    rw [hnum]
    omega
  rw [MarketPredicate.ExactWord, hword]
  by_cases hlast : n = 2 ^ 53
  · rw [hlast]
    decide +kernel
  · exact Double.ofNat_of_lt (by omega)

/-- A parsed predicate stands for the one that was stored. -/
structure RoundTrips (rt : Runtime) (m : Pubkey) (p q : MarketPredicate) : Prop where
  matchId : q.matchId = p.matchId
  team : q.team = p.team
  kind : q.kind = p.kind
  seeds : q.seeds = p.seeds
  address : findMarketPdaFromPredicate rt q = .ok m

theorem seeds_predicateOf (kind : UInt8) (matchId team : Bytes) (x : UInt64) :
    (predicateOf kind matchId team (numberOfU64 x)).seeds =
      .ok (marketSeeds (kindName kind).code (matchIdToBuffer (textOf matchId))
        (teamToBuffer (textOf team)) (Double.ofNat x.toNat)) := by
  have hnumber : toBigInt (numberOfU64 x) = .ok (Double.ofNat x.toNat : ℤ) :=
    toBigInt_eq_ok.mpr rfl
  rw [MarketPredicate.seeds, number_predicateOf, team_predicateOf, hnumber]
  have hkind : (predicateOf kind matchId team (numberOfU64 x)).kind = kindName kind := rfl
  have hmatchId : (predicateOf kind matchId team (numberOfU64 x)).matchId = textOf matchId := rfl
  rw [hkind, hmatchId]
  rfl

/-- **What is read back of the seeds of a predicate.** -/
theorem roundTrips_iff (rt : Runtime) {p : MarketPredicate} {seeds : MarketSeeds}
    (hseeds : p.seeds = .ok seeds) (hmatch : (Utf16.encode p.matchId).length ≤ 32)
    (hteam : (Utf16.encode p.team).length ≤ 8) :
    RoundTrips rt (rt.marketAddress seeds) p
        (predicateOf seeds.kind seeds.matchId.1 seeds.team.1 (numberOfU64 seeds.paramU64)) ↔
      Survives p.matchId ∧ Survives p.team ∧ p.ExactWord := by
  have hp := hseeds
  simp only [MarketPredicate.seeds, bind_eq_ok, pure_eq_ok, toBigInt_eq_ok] at hp
  obtain ⟨n, hn, rfl⟩ := hp
  have hnum : p.number.num = n := by
    rw [hn]
    exact Rat.num_intCast n
  have hmatchText : textOf (matchIdToBuffer p.matchId).1 = p.matchId ↔ Survives p.matchId :=
    textOf_padString_iff ((Utf16.length_encode _).1.trans hmatch)
  have hteamText : textOf (teamToBuffer p.team).1 = p.team ↔ Survives p.team :=
    textOf_padString_iff ((Utf16.length_encode _).1.trans hteam)
  have hword : UInt64.ofInt (Double.ofNat (UInt64.ofInt n).toNat : ℤ) = UInt64.ofInt n ↔
      p.ExactWord := by
    have hself : (UInt64.ofInt n).toNat ≡ n [ZMOD 2 ^ 64] := by
      rw [toNat_ofInt]
      exact Int.mod_modEq n _
    rw [ofInt_eq_iff, MarketPredicate.ExactWord, hnum,
      ← Double.ofNat_modEq_iff (UInt64.ofInt n).toNat_lt]
    exact ⟨fun h => h.trans hself.symm, fun h => h.trans hself⟩
  have hread : (predicateOf p.kind.code (matchIdToBuffer p.matchId).1 (teamToBuffer p.team).1
      (numberOfU64 (UInt64.ofInt n))).seeds = .ok (marketSeeds p.kind.code
        (matchIdToBuffer (textOf (matchIdToBuffer p.matchId).1))
        (teamToBuffer (textOf (teamToBuffer p.team).1))
        (Double.ofNat (UInt64.ofInt n).toNat)) := by
    rw [seeds_predicateOf, kindName_code]
  constructor
  · intro h
    have hsame := h.seeds
    rw [hseeds] at hsame
    have hparam := congrArg MarketSeeds.paramU64 (Except.ok.inj (hread.symm.trans hsame))
    refine ⟨hmatchText.mp h.matchId, hteamText.mp ?_, hword.mp hparam⟩
    exact (team_predicateOf _ _ _ _).symm.trans h.team
  · rintro ⟨hm, ht, hw⟩
    have hsame : (predicateOf p.kind.code (matchIdToBuffer p.matchId).1 (teamToBuffer p.team).1
        (numberOfU64 (UInt64.ofInt n))).seeds = p.seeds := by
      rw [hread, hseeds, hmatchText.mpr hm, hteamText.mpr ht, marketSeeds, hword.mpr hw]
      rfl
    exact ⟨hmatchText.mpr hm, (team_predicateOf _ _ _ _).trans (hteamText.mpr ht),
      kindName_code p.kind, hsame,
      findMarketPdaFromPredicate_eq_ok.mpr ⟨_, hsame.trans hseeds, rfl⟩⟩

/-! ## Markets on fixtures -/

/-- What has to hold of a fixture, a predicate on it and a closing time: names whose codes are
ASCII, a team that survives, a number that is a double, and a date. -/
structure Recoverable (toUpperCase : JsString → JsString) (fixture : Normalizer.Fixture)
    (p : MarketPredicate) (closesAt : ℚ) : Prop where
  participant1 : Utf16.Ascii (Normalizer.code toUpperCase fixture.participant1)
  participant2 : Utf16.Ascii (Normalizer.code toUpperCase fixture.participant2)
  team : Survives p.team
  number : p.ExactWord
  closesAt : -maxSeconds ≤ (Int64.ofInt closesAt.num).toInt ∧
    (Int64.ofInt closesAt.num).toInt ≤ maxSeconds

/-- An id does not end with the replacement character. -/
theorem survives_matchId_iff (toUpperCase : JsString → JsString) (fixture : Normalizer.Fixture) :
    Survives (Normalizer.matchIdFromFixture toUpperCase fixture) ↔
      Utf16.Ascii (Normalizer.code toUpperCase fixture.participant1) ∧
        Utf16.Ascii (Normalizer.code toUpperCase fixture.participant2) := by
  obtain ⟨u, hlast, hpos, hsmall⟩ := Normalizer.exists_getLast_matchId toUpperCase fixture
  rw [← Normalizer.ascii_matchId_iff]
  constructor
  · rintro (⟨hascii, -⟩ | ⟨a, -, ha⟩)
    · exact hascii
    · rw [ha, List.getLast?_concat] at hlast
      rw [← Option.some.inj hlast] at hsmall
      exact absurd hsmall (by decide)
  · intro hascii
    refine (Survives.ascii hascii).mpr fun hnul => ?_
    rw [hlast] at hnul
    rw [Option.some.inj hnul] at hpos
    exact absurd hpos (by decide)

theorem exists_created {rt : Runtime} {ctx : TxContext} {s t : Chain} {creator oracle : Pubkey}
    {p : MarketPredicate} {closesAt : ℚ} {ix : TransactionInstruction} {instruction : Instruction}
    (hix : buildCreateMarketIx rt creator p closesAt oracle = .ok ix)
    (hentry : MarketProgram.createMarketEntry rt ix = some instruction)
    (hexec : exec rt ctx instruction s = .ok t) :
    ∃ seeds closes feeBps, p.seeds = .ok seeds ∧ closesAt = (closes : ℤ) ∧
      t.market (rt.marketAddress seeds) =
        some (MarketProgram.newMarket rt creator seeds (Int64.ofInt closes) oracle feeBps) := by
  obtain ⟨seeds, closes, hseeds, hcloses, hread⟩ := buildCreateMarketIx_ok hix
  obtain rfl := Option.some.inj (hread.symm.trans hentry)
  obtain ⟨c, l₁, l, e, -, -, -, -, -, rfl⟩ := MarketProgram.createMarket_ok hexec
  exact ⟨seeds, closes, c.feeBps, hseeds, hcloses, Function.update_self _ _ _⟩

/-- **The round trip of a predicate.** The account that `create_market` stores can be parsed, and
what is parsed stands for the predicate, exactly when it is recoverable. -/
theorem round_trip_iff {rt : Runtime} {ctx : TxContext} {s t : Chain} {creator oracle : Pubkey}
    {toUpperCase : JsString → JsString} {fixture : Normalizer.Fixture} {p : MarketPredicate}
    {closesAt : ℚ} {ix : TransactionInstruction} {instruction : Instruction}
    (hmatchId : p.matchId = Normalizer.matchIdFromFixture toUpperCase fixture)
    (hlength : (Utf16.encode p.matchId).length ≤ 32) (hteam : (Utf16.encode p.team).length ≤ 8)
    (hix : buildCreateMarketIx rt creator p closesAt oracle = .ok ix)
    (hentry : MarketProgram.createMarketEntry rt ix = some instruction)
    (hexec : exec rt ctx instruction s = .ok t) :
    ∃ seeds mk, p.seeds = .ok seeds ∧ t.market (rt.marketAddress seeds) = some mk ∧
      ((∃ view, parseMarket mk.data (rt.marketAddress seeds) = .ok view ∧
          RoundTrips rt (rt.marketAddress seeds) p view.predicate) ↔
        Recoverable toUpperCase fixture p closesAt) := by
  obtain ⟨seeds, closes, feeBps, hseeds, hcloses, hmk⟩ := exists_created hix hentry hexec
  refine ⟨seeds, _, hseeds, hmk, ?_⟩
  have hnum : closesAt.num = closes := by
    rw [hcloses]
    exact Rat.num_intCast closes
  have hback := roundTrips_iff rt hseeds hlength hteam
  rw [hmatchId, survives_matchId_iff] at hback
  constructor
  · rintro ⟨view, hparse, hround⟩
    obtain ⟨⟨hlow, hhigh, -⟩, rfl⟩ := parseMarket_ok_iff.mp hparse
    obtain ⟨hnames, hsurvives, hnumber⟩ := hback.mp hround
    exact ⟨hnames.1, hnames.2, hsurvives, hnumber, hnum ▸ ⟨hlow, hhigh⟩⟩
  · intro h
    have hdates := h.closesAt
    rw [hnum] at hdates
    have hsettles : (0 : Int64).toInt ≤ maxSeconds := by decide
    refine ⟨_, parseMarket_ok_iff.mpr ⟨⟨hdates.1, hdates.2, hsettles⟩, rfl⟩, ?_⟩
    exact hback.mpr ⟨⟨h.participant1, h.participant2⟩, h.team, h.number⟩

namespace Sample
open Stoppage.Sample

/-- Capital letters for the small ones of Latin-1. -/
def upperCase (s : JsString) : JsString := s.map fun u =>
  if 0x61 ≤ u.toNat ∧ u.toNat ≤ 0x7A ∨ 0xE0 ≤ u.toNat ∧ u.toNat ≤ 0xFE ∧ u.toNat ≠ 0xF7 then u - 0x20
  else u

def fixture (home away : String) : Normalizer.Fixture where
  fixtureId := 18257865
  participant1 := some (Utf16.ofString home)
  participant2 := some (Utf16.ofString away)

def goals (fixture : Normalizer.Fixture) : MarketPredicate where
  kind := .totalGoalsOver
  matchId := Normalizer.matchIdFromFixture upperCase fixture
  params := ⟨some [], some 2, none⟩

/-- Whether the market on a predicate can be created in the small world. -/
def launches (p : MarketPredicate) : Bool :=
  match buildCreateMarketIx runtime alice p 1700001000 echo with
  | .error _ => false
  | .ok ix =>
    match MarketProgram.createMarketEntry runtime ix with
    | none => false
    | some instruction => Action.runsTo runtime [setUp, call instruction] genesis fun _ => True

theorem exists_of_call {instruction : Instruction}
    (h : Action.runsTo runtime [setUp, call instruction] genesis (fun _ => True) = true) :
    ∃ ctx s t, Reachable runtime s ∧ exec runtime ctx instruction s = .ok t := by
  obtain ⟨t, hsteps, -⟩ := steps_of_runsTo h
  cases hsteps with
  | cons hsetUp hrest =>
    cases hrest with
    | cons hcreate _ => exact ⟨_, _, _, ⟨_, _, genesis_ok, .cons hsetUp (.nil _)⟩, hcreate⟩

theorem exists_of_launches {p : MarketPredicate} (h : launches p = true) :
    ∃ ix instruction ctx s t, buildCreateMarketIx runtime alice p 1700001000 echo = .ok ix ∧
      MarketProgram.createMarketEntry runtime ix = some instruction ∧
      exec runtime ctx instruction s = .ok t := by
  unfold launches at h
  split at h
  · cases h
  · rename_i ix hix
    split at h
    · cases h
    · rename_i instruction hentry
      obtain ⟨ctx, s, t, -, hcreate⟩ := exists_of_call h
      exact ⟨ix, instruction, ctx, s, t, hix, hentry, hcreate⟩

end Sample

theorem round_trip_iff_sample : ∃ seeds view,
    (Sample.goals (Sample.fixture "Bromma" "AIK")).seeds = .ok seeds ∧
    RoundTrips Stoppage.Sample.runtime (Stoppage.Sample.runtime.marketAddress seeds)
      (Sample.goals (Sample.fixture "Bromma" "AIK")) view := by
  obtain ⟨ix, instruction, ctx, s, t, hix, hentry, hexec⟩ :=
    Sample.exists_of_launches (p := Sample.goals (Sample.fixture "Bromma" "AIK"))
      (by decide +kernel)
  have hmatchId : (Sample.goals (Sample.fixture "Bromma" "AIK")).matchId =
      Normalizer.matchIdFromFixture Sample.upperCase (Sample.fixture "Bromma" "AIK") := rfl
  obtain ⟨seeds, mk, hseeds, -, hiff⟩ := round_trip_iff hmatchId (by decide +kernel)
    (by decide +kernel) hix hentry hexec
  obtain ⟨view, -, hround⟩ := hiff.mpr ⟨by decide +kernel, by decide +kernel,
    .inl ⟨by decide +kernel, by decide +kernel⟩, by decide +kernel, by decide +kernel⟩
  exact ⟨seeds, view.predicate, hseeds, hround⟩

/-- One letter of two bytes takes the last digit off the fixture. -/
theorem fixture_id_cut : ¬ ∀ (rt : Runtime) (ctx : TxContext) (s t : Chain)
    (creator oracle : Pubkey) (fixture : Normalizer.Fixture) (p : MarketPredicate) (closesAt : ℚ)
    (ix : TransactionInstruction) (instruction : Instruction) (seeds : MarketSeeds)
    (mk : Stoppage.Market),
    p.matchId = Normalizer.matchIdFromFixture Sample.upperCase fixture → 0 < fixture.fixtureId →
    (Utf16.encode p.matchId).length ≤ 32 → (Utf16.encode p.team).length ≤ 8 →
    (∃ n : ℕ, p.number = n ∧ n ≤ 2 ^ 53) →
    buildCreateMarketIx rt creator p closesAt oracle = .ok ix →
    MarketProgram.createMarketEntry rt ix = some instruction → exec rt ctx instruction s = .ok t →
    p.seeds = .ok seeds → t.market (rt.marketAddress seeds) = some mk →
    ∃ view, parseMarket mk.data (rt.marketAddress seeds) = .ok view ∧
      view.predicate.matchId = p.matchId ∧ view.predicate.team = p.team ∧
      view.predicate.kind = p.kind ∧
      findMarketPdaFromPredicate rt view.predicate = .ok (rt.marketAddress seeds) := by
  intro hall
  obtain ⟨ix, instruction, ctx, s, t, hix, hentry, hexec⟩ :=
    Sample.exists_of_launches (p := Sample.goals (Sample.fixture "Brøndby" "AIK"))
      (by decide +kernel)
  obtain ⟨seeds, closes, feeBps, hseeds, -, hmk⟩ := exists_created hix hentry hexec
  obtain ⟨view, hparse, hmatchId, -⟩ := hall _ _ _ _ _ _ (Sample.fixture "Brøndby" "AIK") _ _ ix _
    seeds _ rfl (by decide) (by decide +kernel) (by decide +kernel) ⟨2, rfl, by norm_num⟩ hix hentry
    hexec hseeds hmk
  obtain ⟨-, rfl⟩ := parseMarket_ok_iff.mp hparse
  have hbuffer : seeds.matchId =
      matchIdToBuffer (Sample.goals (Sample.fixture "Brøndby" "AIK")).matchId := by
    simp only [MarketPredicate.seeds, bind_eq_ok, pure_eq_ok] at hseeds
    obtain ⟨n, -, rfl⟩ := hseeds
    rfl
  have hsame : textOf seeds.matchId.1 =
      (Sample.goals (Sample.fixture "Brøndby" "AIK")).matchId := hmatchId
  rw [hbuffer] at hsame
  exact absurd hsame (by decide +kernel)

end Stoppage.Escrow

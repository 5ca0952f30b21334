import Stoppage.Sdk.Escrow
import Stoppage.Chain.Execution

/-! # Which predicates share an address

A seed keeps the first bytes of a string, as many as the string has code units and at most the
width of the field, and fills up with zeros; the number is taken modulo `2 ^ 64`. `identity_iff`
says which predicates that leaves apart.
-/

namespace Stoppage.Escrow
open LittleEndian Fallible Padding Sdk
set_option autoImplicit false

/-- The seeds as they are passed to the derivation. -/
def seedList (s : MarketSeeds) : List Bytes :=
  [[109, 97, 114, 107, 101, 116], s.matchId.1, [s.kind], s.team.1, encodeU64 s.paramU64]

theorem encodeU64_injective : Function.Injective encodeU64 :=
  Function.LeftInverse.injective decodeU64_encodeU64

theorem seedList_injective : Function.Injective seedList := by
  intro s t h
  simp only [seedList, List.cons.injEq, and_true, true_and] at h
  obtain ⟨hmatch, hkind, hteam, hparam⟩ := h
  cases s
  cases t
  rw [MarketSeeds.mk.injEq]
  exact ⟨Subtype.ext hmatch, hkind, Subtype.ext hteam, encodeU64_injective hparam⟩

theorem code_injective : Function.Injective PredicateKind.code := by
  intro j k h
  cases j <;> cases k <;> first | rfl | cases h

/-- What is left of a string in a field: the zeros at its end cannot be told from the filling. -/
def content (s : JsString) (len : ℕ) : Bytes := trim 0 (kept s len)

theorem padString_eq_iff {s t : JsString} {len : ℕ} :
    padString s len = padString t len ↔ content s len = content t len :=
  Subtype.ext_iff.trans (pad_eq_pad_iff (length_kept_le s len) (length_kept_le t len))

theorem ofInt_eq_iff {m n : ℤ} : UInt64.ofInt m = UInt64.ofInt n ↔ m ≡ n [ZMOD 2 ^ 64] := by
  rw [← UInt64.toNat_inj, Int.ModEq, ← toNat_ofInt, ← toNat_ofInt, Nat.cast_inj]

/-- The predicates differ in what the seeds keep of them. -/
def MarketPredicate.Apart (p q : MarketPredicate) : Prop :=
  p.kind ≠ q.kind ∨ content p.matchId 32 ≠ content q.matchId 32 ∨
    content p.team 8 ≠ content q.team 8 ∨ ¬ p.number.num ≡ q.number.num [ZMOD 2 ^ 64]

instance (p q : MarketPredicate) : Decidable (p.Apart q) :=
  inferInstanceAs (Decidable (_ ∨ _ ∨ _ ∨ _))

theorem seeds_eq_iff {p q : MarketPredicate} {a b : MarketSeeds} (ha : p.seeds = .ok a)
    (hb : q.seeds = .ok b) : a = b ↔ ¬ p.Apart q := by
  simp only [MarketPredicate.seeds, bind_eq_ok, pure_eq_ok, toBigInt_eq_ok] at ha hb
  obtain ⟨m, hm, rfl⟩ := ha
  obtain ⟨n, hn, rfl⟩ := hb
  have hpnum : p.number.num = m := by
    rw [hm]
    exact Rat.num_intCast m
  have hqnum : q.number.num = n := by
    rw [hn]
    exact Rat.num_intCast n
  rw [MarketPredicate.Apart, hpnum, hqnum, marketSeeds, marketSeeds, MarketSeeds.mk.injEq,
    matchIdToBuffer, matchIdToBuffer, teamToBuffer, teamToBuffer, padString_eq_iff,
    padString_eq_iff, ofInt_eq_iff, code_injective.eq_iff]
  tauto

/-- **The identity of a market.** Two predicates that can be created have different seeds exactly
when they are apart; otherwise they have one address. -/
theorem identity_iff {rt : Runtime} {creator creator' oracle oracle' : Pubkey}
    {p q : MarketPredicate} {closesAt closesAt' : ℚ} {ix ix' : TransactionInstruction}
    (hp : buildCreateMarketIx rt creator p closesAt oracle = .ok ix)
    (hq : buildCreateMarketIx rt creator' q closesAt' oracle' = .ok ix') :
    ∃ a b, p.seeds = .ok a ∧ q.seeds = .ok b ∧
      ((p ≠ q → seedList a ≠ seedList b) ↔ (p ≠ q → p.Apart q)) ∧
      (¬ p.Apart q → findMarketPdaFromPredicate rt p = findMarketPdaFromPredicate rt q) := by
  obtain ⟨a, -, ha, -⟩ := buildCreateMarketIx_ok hp
  obtain ⟨b, -, hb, -⟩ := buildCreateMarketIx_ok hq
  have hseeds : seedList a ≠ seedList b ↔ p.Apart q := by
    rw [Ne, seedList_injective.eq_iff, seeds_eq_iff ha hb, not_not]
  refine ⟨a, b, ha, hb, ?_, fun hsame => ?_⟩
  · rw [hseeds]
  · have heq := (seeds_eq_iff ha hb).mpr hsame
    rw [findMarketPdaFromPredicate_eq_ok.mpr ⟨a, ha, rfl⟩,
      findMarketPdaFromPredicate_eq_ok.mpr ⟨b, hb, rfl⟩, heq]

namespace Sample

/-- More than two goals in a fixture, given by its teams and the last digit of its id. -/
def totalGoals (teams : String) (last : Char) : MarketPredicate where
  kind := .totalGoalsOver
  matchId := Utf16.ofChars (teams.toList ++ ("-1825786".toList ++ [last]))
  params := ⟨some [], some 2, none⟩

theorem exists_ix (teams : String) (last : Char) :
    ∃ ix, buildCreateMarketIx Stoppage.Sample.runtime Stoppage.Sample.alice
      (totalGoals teams last) 1700001000 Stoppage.Sample.echo = .ok ix :=
  exists_of_isOk rfl

end Sample

/-- Two fixtures of the same teams, all letters of which are ASCII. -/
theorem identity_iff_sample : ∃ a b,
    (Sample.totalGoals "BRO-AIK" '5').seeds = .ok a ∧
    (Sample.totalGoals "BRO-AIK" '6').seeds = .ok b ∧ seedList a ≠ seedList b := by
  obtain ⟨ix, hix⟩ := Sample.exists_ix "BRO-AIK" '5'
  obtain ⟨ix', hix'⟩ := Sample.exists_ix "BRO-AIK" '6'
  obtain ⟨a, b, ha, hb, hiff, -⟩ := identity_iff hix hix'
  have hapart : (Sample.totalGoals "BRO-AIK" '5').Apart (Sample.totalGoals "BRO-AIK" '6') := by
    decide +kernel
  exact ⟨a, b, ha, hb, hiff.mpr (fun _ => hapart) (by decide +kernel)⟩

/-- With one letter of two bytes the last digit is lost, and the two fixtures share a market. -/
theorem fixtures_share_address : ¬ ∀ (rt : Runtime) (creator oracle : Pubkey)
    (p q : MarketPredicate) (closesAt : ℚ) (ix ix' : TransactionInstruction) (a b : MarketSeeds),
    buildCreateMarketIx rt creator p closesAt oracle = .ok ix →
    buildCreateMarketIx rt creator q closesAt oracle = .ok ix' → p ≠ q →
    p.seeds = .ok a → q.seeds = .ok b → seedList a ≠ seedList b := by
  intro hall
  obtain ⟨ix, hix⟩ := Sample.exists_ix "BRØ-AIK" '5'
  obtain ⟨ix', hix'⟩ := Sample.exists_ix "BRØ-AIK" '6'
  obtain ⟨a, -, ha, -⟩ := buildCreateMarketIx_ok hix
  obtain ⟨b, -, hb, -⟩ := buildCreateMarketIx_ok hix'
  have hsame : a = b := (seeds_eq_iff ha hb).mpr (by decide +kernel)
  exact hall _ _ _ _ _ _ ix ix' a b hix hix' (by decide +kernel) ha hb (congrArg seedList hsame)

end Stoppage.Escrow

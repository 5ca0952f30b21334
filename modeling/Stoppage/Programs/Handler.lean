import Stoppage.Programs.MarketEntry
import Stoppage.Lib.Canonical

/-! # Handlers of `programs/market`

An instruction of the program decodes its arguments, takes the accounts of its struct one after the
other and calls the handler. What it reads are exactly the instructions that carry the encoding of
the arguments, with anything behind, and the accounts it needs in order, with the privileges it asks
for at least and others behind. An unchecked account may be any.
-/

namespace Stoppage
open LittleEndian
set_option autoImplicit false

/-! ## Accounts -/

/-- The account is the one that is needed, with at least the privileges that are needed. -/
def AccountMeta.Grants (a need : AccountMeta) : Prop :=
  a.pubkey = need.pubkey ∧ (need.isSigner = true → a.isSigner = true) ∧
    (need.isWritable = true → a.isWritable = true)

theorem AccountMeta.signer_eq_some {a : AccountMeta} {k : Pubkey} :
    a.signer = some k ↔ a.Grants ⟨.external k, true, false⟩ := by
  unfold AccountMeta.signer AccountMeta.Grants
  cases a.pubkey <;> simp [and_comm]

theorem AccountMeta.mutMarket_eq_some {a : AccountMeta} {m : Pubkey} :
    a.mutMarket = some m ↔ a.Grants ⟨.market m, false, true⟩ := by
  unfold AccountMeta.mutMarket AccountMeta.Grants
  cases a.pubkey <;> simp [and_comm]

def Covers : List AccountMeta → List AccountMeta → Prop
  | [], _ => True
  | need :: needs, keys => ∃ a rest, keys = a :: rest ∧ a.Grants need ∧ Covers needs rest

abbrev AccountReader := StateT (List AccountMeta) Option

namespace AccountReader
variable {α : Type}

def next (f : AccountMeta → Option α) : AccountReader α
  | [] => none
  | a :: rest => (f a).map fun x => (x, rest)

/-- `Signer<'info>` -/
def signer (isWritable : Bool) : AccountReader Pubkey := next fun a =>
  if isWritable = true → a.isWritable = true then a.signer else none

/-- `Account<'info, Market>` -/
def market (isWritable : Bool) : AccountReader Pubkey := next fun a =>
  match a.pubkey with
  | .market m => if isWritable = true → a.isWritable = true then some m else none
  | _ => none

/-- `UncheckedAccount<'info>` -/
def unchecked (isWritable : Bool) : AccountReader Address := next fun a =>
  if isWritable = true → a.isWritable = true then some a.pubkey else none

/-- An account at a known address. -/
def seeded (address : Address) (isWritable : Bool) : AccountReader Unit := next fun a =>
  if a.pubkey = address ∧ (isWritable = true → a.isWritable = true) then some () else none

/-- `Program<'info, System>` -/
def systemProgram : AccountReader Unit := seeded (.external systemProgramId) false

/-- `Account<'info, PricingReceipt>` without seeds. -/
def pricingReceipt : AccountReader Pubkey := next fun a =>
  match a.pubkey with
  | .pricingReceipt m => some m
  | _ => none

variable {keys rest : List AccountMeta}

theorem next_eq_some {f : AccountMeta → Option α} {x : α} :
    next f keys = some (x, rest) ↔ ∃ a, keys = a :: rest ∧ f a = some x := by
  cases keys with
  | nil => simp [next]
  | cons a as =>
    simp only [next, Option.map_eq_some_iff, Prod.mk.injEq, List.cons.injEq]
    constructor
    · rintro ⟨_, hx, rfl, rfl⟩
      exact ⟨a, ⟨rfl, rfl⟩, hx⟩
    · rintro ⟨_, ⟨rfl, rfl⟩, hx⟩
      exact ⟨x, hx, rfl, rfl⟩

theorem signer_eq_some {w : Bool} {k : Pubkey} : signer w keys = some (k, rest) ↔
    ∃ a, keys = a :: rest ∧ a.Grants ⟨.external k, true, w⟩ := by
  rw [signer, next_eq_some]
  refine exists_congr fun a => and_congr_right fun _ => ?_
  unfold AccountMeta.signer AccountMeta.Grants
  cases a.pubkey with
  | external l =>
    simp only [Option.ite_none_right_eq_some, Option.some_inj, Address.external.injEq, true_imp_iff]
    tauto
  | _ => simp

theorem market_eq_some {w : Bool} {m : Pubkey} : market w keys = some (m, rest) ↔
    ∃ a, keys = a :: rest ∧ a.Grants ⟨.market m, false, w⟩ := by
  rw [market, next_eq_some]
  refine exists_congr fun a => and_congr_right fun _ => ?_
  unfold AccountMeta.Grants
  cases a.pubkey <;> simp [and_comm]

theorem unchecked_eq_some {x : Address} {w : Bool} : unchecked w keys = some (x, rest) ↔
    ∃ a, keys = a :: rest ∧ a.Grants ⟨x, false, w⟩ := by
  rw [unchecked, next_eq_some]
  simp [AccountMeta.Grants, and_comm]

theorem seeded_eq_some {x : Address} {w : Bool} {u : Unit} : seeded x w keys = some (u, rest) ↔
    ∃ a, keys = a :: rest ∧ a.Grants ⟨x, false, w⟩ := by
  rw [seeded, next_eq_some]
  simp [AccountMeta.Grants]

theorem systemProgram_eq_some {u : Unit} : systemProgram keys = some (u, rest) ↔
    ∃ a, keys = a :: rest ∧ a.Grants ⟨.external systemProgramId, false, false⟩ := seeded_eq_some

theorem pricingReceipt_eq_some {m : Pubkey} : pricingReceipt keys = some (m, rest) ↔
    ∃ a, keys = a :: rest ∧ a.Grants ⟨.pricingReceipt m, false, false⟩ := by
  rw [pricingReceipt, next_eq_some]
  refine exists_congr fun a => and_congr_right fun _ => ?_
  unfold AccountMeta.Grants
  cases a.pubkey <;> simp

end AccountReader

/-! ## Handlers -/

section Handle
variable {A B : Type}

/-- One instruction of the program: its arguments, its accounts, its handler. -/
def handle (discriminator : Bytes) (args : Borsh.Reader A) (accounts : A → AccountReader B)
    (call : A → B → Instruction) (ix : TransactionInstruction) : Option Instruction := do
  let data ← afterDiscriminator discriminator ix.data
  let a ← Borsh.run args data
  let b ← (accounts a ix.keys).map Prod.fst
  some (call a b)

theorem afterDiscriminator_eq_some {discriminator data rest : Bytes}
    (h : discriminator.length = 8) :
    afterDiscriminator discriminator data = some rest ↔ data = discriminator ++ rest := by
  constructor
  · intro hrest
    unfold afterDiscriminator at hrest
    split at hrest
    · rename_i htake
      cases hrest
      rw [← htake, List.take_append_drop]
    · cases hrest
  · rintro rfl
    exact afterDiscriminator_append h rest

/-- The accounts that the reader takes are those that its results need. -/
def Takes (p : AccountReader B) (needs : B → List AccountMeta) : Prop :=
  ∀ keys b, (∃ rest, p keys = some (b, rest)) ↔ Covers (needs b) keys

theorem Takes.map_fst {p : AccountReader B} {needs : B → List AccountMeta} (h : Takes p needs)
    {keys : List AccountMeta} {b : B} :
    (p keys).map Prod.fst = some b ↔ Covers (needs b) keys := by
  rw [← h, Option.map_eq_some_iff]
  constructor
  · rintro ⟨⟨_, rest⟩, hp, rfl⟩
    exact ⟨rest, hp⟩
  · rintro ⟨rest, hp⟩
    exact ⟨(b, rest), hp, rfl⟩

theorem handle_eq_some {discriminator : Bytes} {args : Borsh.Reader A} {fits : A → Prop}
    {enc : A → Bytes} {accounts : A → AccountReader B} {needs : A → B → List AccountMeta}
    {call : A → B → Instruction} {ix : TransactionInstruction} {i : Instruction}
    (hlength : discriminator.length = 8) (hargs : Borsh.Canonical args fits enc)
    (haccounts : ∀ a, Takes (accounts a) (needs a)) :
    handle discriminator args accounts call ix = some i ↔ ∃ a b, i = call a b ∧ fits a ∧
      discriminator ++ enc a <+: ix.data ∧ Covers (needs a b) ix.keys := by
  simp only [handle, Option.bind_eq_bind, Option.bind_eq_some_iff, hargs.run_iff,
    (haccounts _).map_fst, afterDiscriminator_eq_some hlength, Option.some_inj]
  constructor
  · rintro ⟨data, hdata, a, ⟨hfits, henc⟩, b, hb, rfl⟩
    refine ⟨a, b, rfl, hfits, ?_, hb⟩
    rw [hdata]
    exact (List.prefix_append_right_inj discriminator).mpr henc
  · rintro ⟨a, b, rfl, hfits, ⟨rest, hrest⟩, hb⟩
    exact ⟨enc a ++ rest, by rw [← hrest, List.append_assoc], a, ⟨hfits, rest, rfl⟩, b, hb, rfl⟩

end Handle

/-! ## Arguments -/

theorem Pubkey.accepts {bs rest : Bytes} {k : Pubkey} (h : Pubkey.read bs = some (k, rest)) :
    bs = k.bytes ++ rest := by
  obtain ⟨xs, mid, hxs, hk⟩ := Borsh.bind_eq_some.mp h
  obtain ⟨hkey, rfl⟩ := Borsh.lift_eq_some.mp hk
  obtain ⟨hlength, rfl⟩ := Borsh.bytes_eq_some.mp hxs
  rw [Pubkey.tryFrom, dif_pos hlength] at hkey
  cases hkey
  rfl

theorem Pubkey.canonical : Borsh.Canonical Pubkey.read (fun _ => True) Pubkey.bytes where
  reads k _ := k.reads
  accepts _ _ _ h := ⟨trivial, Pubkey.accepts h⟩

namespace MarketProgram

structure DelegateSessionKeyArgs where
  allowedPrograms : List Pubkey
  maxStakePerMarket : UInt64
  maxTotalStake : UInt64
  expiresAt : Int64
  fundLamports : UInt64

def DelegateSessionKeyArgs.read : Borsh.Reader DelegateSessionKeyArgs := do
  let allowedPrograms ← Borsh.vector Pubkey.read
  let maxStakePerMarket ← Borsh.u64
  let maxTotalStake ← Borsh.u64
  let expiresAt ← Borsh.i64
  let fundLamports ← Borsh.u64
  pure { allowedPrograms, maxStakePerMarket, maxTotalStake, expiresAt, fundLamports }

def DelegateSessionKeyArgs.data (a : DelegateSessionKeyArgs) : Bytes :=
  (encode 4 a.allowedPrograms.length ++ (a.allowedPrograms.map Pubkey.bytes).flatten) ++
    (encodeU64 a.maxStakePerMarket ++ (encodeU64 a.maxTotalStake ++
      (encodeI64 a.expiresAt ++ encodeU64 a.fundLamports)))

theorem DelegateSessionKeyArgs.canonical : Borsh.Canonical DelegateSessionKeyArgs.read
    (fun a => a.allowedPrograms.length < 2 ^ 32) DelegateSessionKeyArgs.data where
  reads a h := by
    have hkeys : List.Forall₂ (fun bs k => Borsh.Reads Pubkey.read bs k)
        (a.allowedPrograms.map Pubkey.bytes) a.allowedPrograms := by
      rw [List.forall₂_map_left_iff, List.forall₂_same]
      exact fun k _ => k.reads
    refine (Borsh.reads_vector hkeys h).bind ?_
    refine (Borsh.reads_u64 a.maxStakePerMarket).bind ?_
    refine (Borsh.reads_u64 a.maxTotalStake).bind ?_
    refine (Borsh.reads_i64 a.expiresAt).bind ?_
    exact (Borsh.reads_u64 a.fundLamports).map fun fundLamports => { a with fundLamports }
  accepts bs a rest h := by
    simp only [DelegateSessionKeyArgs.read, Borsh.bind_eq_some, Borsh.pure_eq_some,
      Borsh.u64_eq_some, Borsh.i64_eq_some] at h
    obtain ⟨programs, _, hprograms, _, _, rfl, _, _, rfl, _, _, rfl, _, _, rfl, rfl, rfl⟩ := h
    obtain ⟨hlength, rfl⟩ := Borsh.vector_eq_some (fun _ _ _ => Pubkey.accepts) hprograms
    refine ⟨hlength, ?_⟩
    simp only [DelegateSessionKeyArgs.data, List.append_assoc]

/-- The arguments of both ways to join. -/
structure JoinArgs where
  side : UInt8
  amount : UInt64

def JoinArgs.read : Borsh.Reader JoinArgs := do
  let side ← Borsh.byte
  let amount ← Borsh.u64
  pure { side, amount }

def JoinArgs.data (a : JoinArgs) : Bytes := [a.side] ++ encodeU64 a.amount

theorem JoinArgs.canonical : Borsh.Canonical JoinArgs.read (fun _ => True) JoinArgs.data where
  reads a _ := by
    refine (Borsh.reads_byte a.side).bind ?_
    exact (Borsh.reads_u64 a.amount).map fun amount => { a with amount }
  accepts bs a rest h := by
    simp only [JoinArgs.read, Borsh.bind_eq_some, Borsh.pure_eq_some, Borsh.byte_eq_some,
      Borsh.u64_eq_some] at h
    obtain ⟨_, _, rfl, _, _, rfl, rfl, rfl⟩ := h
    refine ⟨trivial, ?_⟩
    simp only [JoinArgs.data, List.append_assoc]

theorem CreateMarketArgs.canonical :
    Borsh.Canonical CreateMarketArgs.read (fun _ => True) CreateMarketArgs.data where
  reads a _ := a.reads
  accepts bs a rest h := by
    simp only [CreateMarketArgs.read, Borsh.bind_eq_some, Borsh.pure_eq_some, Borsh.byte_eq_some,
      Borsh.array_eq_some, Borsh.u64_eq_some, Borsh.i64_eq_some] at h
    obtain ⟨_, _, rfl, _, _, rfl, _, _, rfl, _, _, rfl, _, _, rfl, _, _, horacle, rfl, rfl⟩ := h
    obtain rfl := Pubkey.accepts horacle
    refine ⟨trivial, ?_⟩
    simp only [CreateMarketArgs.data, List.append_assoc]

theorem AttestPricingArgs.canonical : Borsh.Canonical AttestPricingArgs.read
    (fun a => (utf8 a.modelVersion).length < 2 ^ 32) AttestPricingArgs.data where
  reads a h := a.reads h
  accepts bs a rest h := by
    simp only [AttestPricingArgs.read, Borsh.bind_eq_some, Borsh.pure_eq_some, Borsh.array_eq_some,
      Borsh.u64_eq_some, Borsh.i64_eq_some] at h
    obtain ⟨_, _, rfl, version, _, hversion, _, _, rfl, _, _, rfl, _, _, rfl, _, _, rfl, _, _, rfl,
      rfl, rfl⟩ := h
    obtain ⟨xs, hxs, hlength, rfl⟩ := Borsh.string_eq_some hversion
    obtain rfl : xs = utf8 version :=
      List.toByteArray_inj.mp (hxs.trans (utf8_toByteArray version).symm)
    refine ⟨hlength, ?_⟩
    simp only [AttestPricingArgs.data, List.append_assoc]

end MarketProgram

end Stoppage

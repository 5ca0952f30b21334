import Stoppage.Instance.Pool
import Stoppage.Receipt.Bundle
import Mathlib.Data.List.GetD

/-! # Who can answer for an attested market

The attestation validator accepts any key with a `Config` account, the account sits at the address
of its key, and the signature before `resolve_market` must be by that key. A market records the
validator and no key: `authority_unique_iff` says when only one key can answer for it all the same,
and `two_authorities` shows two keys that answer differently.
-/

namespace Stoppage
open Fallible LittleEndian TransitionSystem SettlementProgram
set_option autoImplicit false

/-! ## The precompile -/

theorem dataSlice_this (rt : Runtime) (ctx : TxContext) (own : Bytes) (offset size : ℕ) :
    rt.dataSlice ctx own thisInstruction offset size =
      if offset + size ≤ own.length then some (slice own offset size) else none := rfl

/-- An instruction has one signature entry, which refers to nothing but the instruction. -/
structure SelfContained (d : Bytes) : Prop where
  one : d.getD 0 0 = 1
  signature : u16At d 4 = thisInstruction
  key : u16At d 8 = thisInstruction
  message : u16At d 14 = thisInstruction

theorem SelfContained.verifyEntry_iff {d : Bytes} (h : SelfContained d) (rt : Runtime)
    (ctx : TxContext) : rt.verifyEntry ctx d 2 = true ↔
      u16At d 2 + 64 ≤ d.length ∧ u16At d 6 + 32 ≤ d.length ∧
        u16At d 10 + u16At d 12 ≤ d.length ∧
        rt.ed25519Verify (slice d (u16At d 6) 32) (slice d (u16At d 2) 64)
          (slice d (u16At d 10) (u16At d 12)) = true := by
  rw [Runtime.verifyEntry, h.signature, h.key, h.message, dataSlice_this, dataSlice_this,
    dataSlice_this]
  by_cases hs : u16At d 2 + 64 ≤ d.length
  · by_cases hk : u16At d 6 + 32 ≤ d.length
    · by_cases hm : u16At d 10 + u16At d 12 ≤ d.length
      · simp only [hs, hk, hm, if_true, true_and]
      · simp only [hs, hk, hm, if_true, if_false, false_and, and_false, Bool.false_eq_true]
    · simp only [hs, hk, if_true, if_false, false_and, and_false, Bool.false_eq_true]
  · simp only [hs, if_false, false_and, Bool.false_eq_true]

theorem SelfContained.precompile_iff {d : Bytes} (h : SelfContained d) (rt : Runtime)
    (ctx : TxContext) : rt.ed25519Precompile ctx d = .ok () ↔
      16 ≤ d.length ∧ rt.verifyEntry ctx d 2 = true := by
  have hone : (d.getD 0 0).toNat = 1 := by rw [h.one]; rfl
  simp only [Runtime.ed25519Precompile, bind_eq_ok, require_eq_ok, hone]
  constructor
  · rintro ⟨-, -, -, -, -, hlong, hall⟩
    exact ⟨hlong, List.all_eq_true.mp hall 0 (by decide)⟩
  · rintro ⟨hlong, hentry⟩
    refine ⟨(), by omega, (), by omega, (), hlong, List.all_eq_true.mpr ?_⟩
    intro i hi
    have hi0 : i = 0 := by
      have := List.mem_range.mp hi
      omega
    subst hi0
    exact hentry

namespace AttestationValidator

theorem checkSignature_iff {k : Pubkey} {a : Args} {d : Bytes} :
    checkSignature k a d = .ok () ↔
      16 ≤ d.length ∧ SelfContained d ∧ u16At d 12 = msgLen ∧
        (u16At d 6 + 32 ≤ d.length ∧ u16At d 10 + u16At d 12 ≤ d.length) ∧
        slice d (u16At d 6) 32 = k.bytes ∧ slice d (u16At d 10) (u16At d 12) = a.message := by
  simp only [checkSignature, bind_eq_ok, require_eq_ok]
  constructor
  · rintro ⟨-, hlong, -, hone, -, ⟨hs, hk, hm⟩, -, hlen, -, hbounds, -, hkey, hmsg⟩
    exact ⟨hlong, ⟨hone, hs, hk, hm⟩, hlen, hbounds, hkey, hmsg⟩
  · rintro ⟨hlong, ⟨hone, hs, hk, hm⟩, hlen, hbounds, hkey, hmsg⟩
    exact ⟨(), hlong, (), hone, (), ⟨hs, hk, hm⟩, (), hlen, (), hbounds, (), hkey, hmsg⟩

/-! ## What an operator submits -/

/-- One entry: the key at 16, the signature at 48 and the message of 66 bytes at 112. -/
def signatureHeader : Bytes := [1, 0, 48, 0, 255, 255, 16, 0, 255, 255, 112, 0, 66, 0, 255, 255]

/-- The precompile instruction of an operator. -/
def signedData (k : Pubkey) (signature : List.Vector UInt8 64) (a : Args) : Bytes :=
  signatureHeader ++ (k.bytes ++ (signature.1 ++ a.message))

section SignedData
variable (k : Pubkey) (signature : List.Vector UInt8 64) (a : Args)

theorem length_signedData : (signedData k signature a).length = 178 := by
  simp only [signedData, signatureHeader, List.length_append, List.length_cons, List.length_nil,
    k.size, signature.2, a.length_message, msgLen]

theorem u16At_signedData {i : ℕ} (h : i + 1 < 16) :
    u16At (signedData k signature a) i = u16At signatureHeader i := by
  have hnext : i + 1 < signatureHeader.length := h
  rw [signedData, u16At, List.getD_append _ _ _ _ (Nat.lt_of_succ_lt hnext),
    List.getD_append _ _ _ _ hnext, u16At]

/-- Where the signature, the key and the message are, and how long the message is. -/
theorem offsets_signedData : u16At (signedData k signature a) 2 = 48 ∧
    u16At (signedData k signature a) 6 = 16 ∧ u16At (signedData k signature a) 10 = 112 ∧
    u16At (signedData k signature a) 12 = 66 := by
  refine ⟨?_, ?_, ?_, ?_⟩ <;>
  · rw [u16At_signedData _ _ _ (by decide)]
    decide

theorem selfContained_signedData : SelfContained (signedData k signature a) := by
  refine ⟨rfl, ?_, ?_, ?_⟩ <;>
  · rw [u16At_signedData _ _ _ (by decide)]
    decide

theorem slices_signedData :
    slice (signedData k signature a) 16 32 = k.bytes ∧
      slice (signedData k signature a) 48 64 = signature.1 ∧
      slice (signedData k signature a) 112 66 = a.message := by
  obtain ⟨-, h16⟩ := read_field (n := 16) (List.drop_zero (l := signedData k signature a)) rfl
  obtain ⟨hkey, h48⟩ := read_field h16 k.size
  obtain ⟨hsig, h112⟩ := read_field h48 signature.2
  have hmsg := read_field (h112.trans (List.append_nil _).symm) a.length_message
  exact ⟨hkey, hsig, hmsg.1⟩

theorem checkSignature_signedData : checkSignature k a (signedData k signature a) = .ok () := by
  obtain ⟨hkey, -, hmsg⟩ := slices_signedData k signature a
  obtain ⟨-, h6, h10, h12⟩ := offsets_signedData k signature a
  rw [checkSignature_iff, length_signedData, h6, h10, h12]
  exact ⟨by decide, selfContained_signedData k signature a, rfl, by decide, hkey, hmsg⟩

theorem precompile_signedData (rt : Runtime) (ctx : TxContext) :
    rt.ed25519Precompile ctx (signedData k signature a) = .ok () ↔
      rt.ed25519Verify k.bytes signature.1 a.message = true := by
  obtain ⟨hkey, hsig, hmsg⟩ := slices_signedData k signature a
  obtain ⟨h2, h6, h10, h12⟩ := offsets_signedData k signature a
  have hself := selfContained_signedData k signature a
  rw [hself.precompile_iff, hself.verifyEntry_iff, length_signedData, h2, h6, h10, h12, hkey, hsig,
    hmsg]
  exact ⟨fun h => h.2.2.2.2, fun h => ⟨by decide, by decide, by decide, by decide, h⟩⟩

end SignedData

theorem Args.length_encode (a : Args) : a.encode.length = 57 := by
  simp only [encode, List.length_append, a.fixtureRef.2, length_encodeU32, length_encodeI64,
    List.length_cons, List.length_nil]

theorem Args.decode_encode (a : Args) : Args.decode a.encode = some a := by
  obtain ⟨hfixture, h16⟩ := read_field (List.drop_zero (l := a.encode)) a.fixtureRef.2
  obtain ⟨hkey, h20⟩ := read_field h16 (length_encodeU32 _)
  obtain ⟨hop, h21⟩ := read_field (n := 1) h20 rfl
  obtain ⟨hthreshold, h29⟩ := read_field h21 (length_encodeI64 _)
  obtain ⟨hvalue, h37⟩ := read_field h29 (length_encodeI64 _)
  obtain ⟨hobs, h45⟩ := read_field h37 (length_encodeI64 _)
  obtain ⟨href, h53⟩ := read_field h45 (length_encodeI64 _)
  obtain ⟨hwindow, -⟩ := read_field (h53.trans (List.append_nil _).symm) (length_encodeU32 _)
  have hlong : 16 + 4 + 1 + 8 + 8 + 8 + 8 + 4 ≤ a.encode.length := by
    rw [a.length_encode]
  have hopByte : a.encode.getD 20 0 = a.op := getD_of_drop h20 0
  rw [decode, dif_pos hlong, hopByte]
  have hvector : (⟨a.encode.take 16, by rw [List.length_take]; omega⟩ : List.Vector UInt8 16) =
      a.fixtureRef := Subtype.ext hfixture
  simp only [Nat.zero_add, Nat.reduceAdd] at hkey hthreshold hvalue hobs href hwindow
  rw [hvector, hkey, hthreshold, hvalue, hobs, href, hwindow, decodeU32_encodeU32,
    decodeI64_encodeI64, decodeI64_encodeI64, decodeI64_encodeI64, decodeI64_encodeI64,
    decodeU32_encodeU32]

/-! ## The entry point -/

theorem entry_ok {ctx : TxContext} {s : Chain} {data : Bytes} {accounts : List Address}
    {ret : Option ReturnData} (h : entry ctx s data accounts = .ok ret) :
    ∃ k a d, precedingEd25519 ctx = some d ∧ checkSignature k a d = .ok () := by
  simp only [entry, bind_eq_ok, require_eq_ok, getOr_eq_ok, pure_eq_ok] at h
  obtain ⟨-, -, a, -, address, -, c, -, instructions, -, holds, hvalid, -⟩ := h
  simp only [validateAttestation, bind_eq_ok, require_eq_ok, getOr_eq_ok] at hvalid
  obtain ⟨-, -, d, hd, ⟨⟩, hsig, -⟩ := hvalid
  exact ⟨c.authority, a, d, hd, hsig⟩

/-- The observation lies in the window that the arguments name. -/
structure Args.Timely (a : Args) : Prop where
  notBefore : a.referenceTs.toInt ≤ a.obsTs.toInt
  notAfter : a.obsTs.toInt ≤ a.referenceTs.toInt + a.windowSeconds.toNat
  fits : a.referenceTs.toInt + a.windowSeconds.toNat < 2 ^ 63

theorem validateAttestation_of {ctx : TxContext} {c : Config} {d : Bytes} {a : Args} {holds : Bool}
    (hd : precedingEd25519 ctx = some d) (hsig : checkSignature c.authority a d = .ok ())
    (htimely : a.Timely) (hholds : a.holds = some holds) :
    validateAttestation ctx c (.external instructionsSysvarId) a = .ok holds := by
  have hlow := a.referenceTs.le_toInt
  obtain ⟨upper, hupper⟩ : ∃ upper : Int64,
      upper.toInt = a.referenceTs.toInt + a.windowSeconds.toNat :=
    exists_toInt (by omega) htimely.fits
  rw [validateAttestation, require_of rfl, ok_bind, hd, getOr_some, ok_bind, hsig, ok_bind,
    checkedAddInt_u32_eq_ok.mpr hupper, ok_bind,
    require_of (Int64.le_iff_toInt_le.mpr htimely.notBefore), ok_bind,
    require_of (Int64.le_iff_toInt_le.mpr (hupper ▸ htimely.notAfter)), ok_bind, hholds]
  rfl

/-- The entry point answers when the arguments and accounts are those of the call. -/
theorem entry_of {ctx : TxContext} {s : Chain} {k : Pubkey} {c : Config} {d : Bytes} {a : Args}
    {holds : Bool} (hconfig : s.config k = some c) (hauthority : c.authority = k)
    (hd : precedingEd25519 ctx = some d) (hsig : checkSignature k a d = .ok ())
    (htimely : a.Timely) (hholds : a.holds = some holds) :
    entry ctx s (validateAttestationDiscriminator ++ a.encode)
        [.config k, .external instructionsSysvarId] =
      .ok (some (attestationValidatorId, [if holds then 1 else 0])) := by
  have hload : loadConfig s (.config k) = .ok c := by
    rw [loadConfig, hconfig, getOr_some, ok_bind, require_of hauthority]
    rfl
  have hvalid : validateAttestation ctx c (.external instructionsSysvarId) a = .ok holds :=
    validateAttestation_of hd (hauthority.symm ▸ hsig) htimely hholds
  have hdiscriminator : (validateAttestationDiscriminator ++ a.encode).take 8 =
      validateAttestationDiscriminator := List.take_left' rfl
  have hdecode : Args.decode ((validateAttestationDiscriminator ++ a.encode).drop 8) = some a :=
    a.decode_encode
  rw [entry, require_of hdiscriminator, ok_bind, hdecode, getOr_some, ok_bind]
  show (loadConfig s (.config k) >>= _) = _
  rw [hload, ok_bind]
  show (validateAttestation ctx c (.external instructionsSysvarId) a >>= _) = _
  rw [hvalid]
  rfl

end AttestationValidator

/-! ## Keys and bundles -/

/-- The key has signed some observation. -/
def Signs (rt : Runtime) (k : Pubkey) : Prop :=
  ∃ (a : AttestationValidator.Args) (signature : List.Vector UInt8 64),
    rt.ed25519Verify k.bytes signature.1 a.message = true

/-- The key is pinned: it has a `Config` account. -/
def Chain.Pinned (s : Chain) (k : Pubkey) : Prop := ∃ c, s.config k = some c

/-- The signature right before `resolve_market` is by the key. -/
def Bundle.SignedBy (b : Bundle) (k : Pubkey) : Prop :=
  ∃ before d, b.signatures = before ++ [d] ∧ slice d (u16At d 6) 32 = k.bytes

theorem Bundle.precedingEd25519_context {b : Bundle} {before : List Bytes} {d : Bytes}
    (h : b.signatures = before ++ [d]) :
    AttestationValidator.precedingEd25519 b.context = some d := by
  have hindex : b.context.index = before.length + 1 := by
    rw [context, h, List.length_append]
    rfl
  have hget : b.context.instructions[before.length]? = some (.ed25519 d) := by
    rw [context, instructions, h, List.map_append, List.append_assoc,
      List.getElem?_append_right (by rw [List.length_map]), List.length_map, Nat.sub_self]
    rfl
  rw [AttestationValidator.precedingEd25519, hindex, if_pos (Nat.succ_pos _),
    Nat.add_sub_cancel, hget]

theorem Bundle.Settles.signs {rt : Runtime} {b : Bundle} {s : Chain} {k : Pubkey}
    (h : b.Settles rt s) (hvalidator : b.validator = attestationValidatorId)
    (hk : b.SignedBy k) : Signs rt k := by
  obtain ⟨before, d, hsignatures, hkey⟩ := hk
  obtain ⟨hsigned, u, -, hverdict⟩ := (settles_iff.mp h).1
  obtain ⟨_, _, hinvoke, -⟩ := hverdict.answered
  rw [hvalidator, invoke_attestationValidator] at hinvoke
  obtain ⟨k', a, d', hd', hcheck⟩ := AttestationValidator.entry_ok hinvoke
  cases (precedingEd25519_context hsignatures).symm.trans hd'
  obtain ⟨-, hself, -, -, -, hmessage⟩ := AttestationValidator.checkSignature_iff.mp hcheck
  have hmem : d ∈ b.signatures := by
    rw [hsignatures]
    exact List.mem_append_right _ List.mem_cons_self
  obtain ⟨-, hentry⟩ := (hself.precompile_iff rt b.context).mp (hsigned d hmem)
  obtain ⟨hlong, -, -, hverify⟩ := (hself.verifyEntry_iff rt b.context).mp hentry
  rw [hkey, hmessage] at hverify
  exact ⟨a, ⟨slice d (u16At d 2) 64, length_slice hlong⟩, hverify⟩

/-- The bundle with which an operator answers for a market. -/
def attestedBundle (keeper m k : Pubkey) (signature : List.Vector UInt8 64)
    (a : AttestationValidator.Args) (outcome : UInt8) : Bundle where
  keeper := keeper
  market := m
  outcome := outcome
  validator := attestationValidatorId
  data := AttestationValidator.validateAttestationDiscriminator ++ a.encode
  accounts := [.config k, .external instructionsSysvarId]
  statement := ""
  merkleRoot := List.Vector.replicate 32 0
  signatures := [AttestationValidator.signedData k signature a]

theorem attestedBundle_signedBy (keeper m k : Pubkey) (signature : List.Vector UInt8 64)
    (a : AttestationValidator.Args) (outcome : UInt8) :
    (attestedBundle keeper m k signature a outcome).SignedBy k := by
  obtain ⟨hkey, -, -⟩ := AttestationValidator.slices_signedData k signature a
  obtain ⟨-, h6, -, -⟩ := AttestationValidator.offsets_signedData k signature a
  exact ⟨[], _, rfl, by rw [h6, hkey]⟩

/-- A config answers for the key of its address only. -/
theorem Reachable.config_authority {rt : Runtime} {s : Chain} {k : Pubkey} {c : Config}
    (h : Reachable rt s) (hc : s.config k = some c) : c.authority = k := by
  refine h.invariant (I := fun u => ∀ k c, u.config k = some c → c.authority = k) ?_ ?_ k c hc
  · intro u hg k c hc
    rw [hg.config] at hc
    cases hc
  · intro u a v hstep hu k c hc
    obtain ⟨ctx, ix, rfl, hix⟩ | ⟨now, rfl, -, rfl⟩ | ⟨key, x, rfl, rfl⟩ := hstep.cases
    · cases hpins : ix.pins with
      | false => exact hu k c ((exec_near hix).config hpins ▸ hc)
      | true =>
        cases ix with
        | initializeConfig payer authority =>
          obtain ⟨l, -, -, rfl⟩ := AttestationValidator.initializeConfig_ok hix
          by_cases hk : k = authority
          · subst hk
            cases (Function.update_self ..).symm.trans hc
            rfl
          · exact hu k c ((Function.update_of_ne hk _ _).symm.trans hc)
        | _ => cases hpins
    · exact hu k c hc
    · exact hu k c hc

/-- **Any pinned key answers for any open market of the validator**, as its signature says. -/
theorem attestedBundle_settles {rt : Runtime} {s u : Chain} {m k keeper : Pubkey} {mk : Market}
    {signature : List.Vector UInt8 64} {a : AttestationValidator.Args} {outcome : UInt8}
    (hs : Reachable rt s) (hmk : s.market m = some mk) (hopen : mk.status = statusOpen)
    (horacle : mk.oracle = attestationValidatorId) (hnone : s.resolution m = none)
    (hpaid : s.systemTransfer keeper (.resolution m)
      (s.rentDue rt (.resolution m) Resolution.space) = .ok u)
    (hpinned : s.Pinned k) (hverify : rt.ed25519Verify k.bytes signature.1 a.message = true)
    (htimely : a.Timely) (hout : outcome = sideYes ∨ outcome = sideNo)
    (hholds : a.holds = some (decide (outcome = sideYes))) :
    (attestedBundle keeper m k signature a outcome).Settles rt s := by
  let b := attestedBundle keeper m k signature a outcome
  obtain ⟨c, hc⟩ := hpinned
  have hauthority := hs.config_authority hc
  have hcu : u.config k = some c := by rw [(Aside.of_transfer hpaid).config, hc]
  have hsignatures : b.signatures = [] ++ [AttestationValidator.signedData k signature a] := rfl
  have hentry := AttestationValidator.entry_of hcu hauthority
    (Bundle.precedingEd25519_context hsignatures)
    (AttestationValidator.checkSignature_signedData k signature a) htimely hholds
  have hverdict : Verdict rt b.context u b.validator b.data b.accounts b.outcome :=
    (verdict_iff ((invoke_attestationValidator ..).trans hentry)).mpr decide_eq_true_iff
  have hsigned : ∀ d ∈ b.signatures, rt.ed25519Precompile b.context d = .ok () := by
    intro d hd
    rw [List.mem_singleton.mp hd]
    exact (AttestationValidator.precompile_signedData k signature a rt b.context).mpr hverify
  exact Bundle.settles_iff.mpr ⟨⟨hsigned, u, hpaid, hverdict⟩, hnone, hout, mk, hmk, horacle,
    .inl hopen⟩

/-! ## Who can answer -/

/-- Some run leads to an accepted bundle of the market that the key has signed. -/
def CanAnswer (rt : Runtime) (m : Pubkey) (s : Chain) (k : Pubkey) : Prop :=
  ∃ (as : List Action) (t : Chain) (b : Bundle), Steps (Step rt) s as t ∧ b.market = m ∧
    b.validator = attestationValidatorId ∧ b.SignedBy k ∧ b.Settles rt t

theorem CanAnswer.signs {rt : Runtime} {m k : Pubkey} {s : Chain} (h : CanAnswer rt m s k) :
    Signs rt k := by
  obtain ⟨as, t, b, -, -, hvalidator, hsigned, hsettles⟩ := h
  exact hsettles.signs hvalidator hsigned

theorem CanAnswer.fresh {rt : Runtime} {m k : Pubkey} {s : Chain} (h : CanAnswer rt m s k) :
    s.resolution m = none := by
  obtain ⟨as, t, b, hrun, rfl, -, -, hsettles⟩ := h
  have hnone := (Bundle.settles_iff.mp hsettles).2.1
  cases hr : s.resolution b.market with
  | none => rfl
  | some r =>
    rw [receipt_kept hrun hr] at hnone
    cases hnone

/-- Whatever a key has signed, its observation answers a question. -/
theorem canAnswer_of_signs {rt : Runtime} {s u : Chain} {m k keeper : Pubkey} {mk : Market}
    (hs : Reachable rt s) (hmk : s.market m = some mk) (hopen : mk.status = statusOpen)
    (horacle : mk.oracle = attestationValidatorId) (hnone : s.resolution m = none)
    (hpaid : s.systemTransfer keeper (.resolution m)
      (s.rentDue rt (.resolution m) Resolution.space) = .ok u)
    (hpinned : s.Pinned k) (hsigns : Signs rt k) : CanAnswer rt m s k := by
  obtain ⟨a, signature, hverify⟩ := hsigns
  -- Is the observed value at least the observed value?
  let asked : AttestationValidator.Args :=
    { a with op := 0, threshold := a.value, referenceTs := a.obsTs, windowSeconds := 0 }
  have hholds : asked.holds = some (decide (sideYes = sideYes)) := by
    show some (decide (a.value ≤ a.value)) = _
    rw [decide_eq_true (Int64.le_refl _)]
    rfl
  have htimely : asked.Timely := by
    have hlt := a.obsTs.toInt_lt
    refine ⟨le_rfl, ?_, ?_⟩
    · show a.obsTs.toInt ≤ a.obsTs.toInt + 0
      omega
    · show a.obsTs.toInt + 0 < 2 ^ 63
      omega
  exact ⟨[], s, attestedBundle keeper m k signature asked sideYes, .nil s, rfl, rfl,
    attestedBundle_signedBy .., attestedBundle_settles hs hmk hopen horacle hnone hpaid hpinned
      hverify htimely (.inl rfl) hholds⟩

/-- The wallet has the rent of a `Config` account and of a receipt. -/
structure Chain.PaysAnswer (s : Chain) (rt : Runtime) (keeper : Pubkey) : Prop where
  wallet : (s.external keeper).IsWallet
  funds : (rt.minimumBalance Config.space).toNat + (rt.minimumBalance Resolution.space).toNat ≤
    (s.lamports (.external keeper)).toNat

/-- Somebody who can pay pins any key, and has the rent of a receipt left. -/
theorem exists_pinned_of_pays {rt : Runtime} {s : Chain} {keeper : Pubkey} (k : Pubkey)
    (hs : Reachable rt s) (hkeeper : s.PaysAnswer rt keeper) :
    ∃ as t, Steps (Step rt) s as t ∧ t.Pinned k ∧ t.market = s.market ∧
      t.resolution = s.resolution ∧ (t.external keeper).IsWallet ∧
      (rt.minimumBalance Resolution.space).toNat ≤ (t.lamports (.external keeper)).toNat := by
  have hfunds := hkeeper.funds
  cases hk : s.config k with
  | some c => exact ⟨[], s, .nil s, ⟨c, hk⟩, rfl, rfl, hkeeper.wallet, by omega⟩
  | none =>
    have hrent := s.rentDue_le rt (.config k) Config.space
    obtain ⟨u, hu⟩ := Chain.exists_systemTransfer (.config k) hkeeper.wallet
      (hrent.trans (Nat.le_of_add_right_le hfunds)) hs.supply
    have hstep : Step rt s (Sample.call (.initializeConfig keeper k)) _ :=
      AttestationValidator.initializeConfig_of hk hu
    obtain ⟨l, -, hmoved, rfl⟩ := Chain.systemTransfer_ok hu
    have hpayer := hmoved.payer Address.noConfusion
    refine ⟨_, _, .single hstep, ⟨_, Function.update_self ..⟩, rfl, rfl, hkeeper.wallet, ?_⟩
    show _ ≤ (l (.external keeper)).toNat
    omega

/-- **Every key that has signed can answer**: who is not pinned is pinned by anybody. -/
theorem canAnswer_of_pays {rt : Runtime} {s : Chain} {m k keeper : Pubkey} {mk : Market}
    (hs : Reachable rt s) (hmk : s.market m = some mk) (hopen : mk.status = statusOpen)
    (horacle : mk.oracle = attestationValidatorId) (hnone : s.resolution m = none)
    (hkeeper : s.PaysAnswer rt keeper) (hsigns : Signs rt k) : CanAnswer rt m s k := by
  obtain ⟨as, t, hrun, hpinned, hmarket, hresolution, hwallet, hfunds⟩ :=
    exists_pinned_of_pays k hs hkeeper
  have ht : Reachable rt t := hs.steps hrun
  have hrent := t.rentDue_le rt (.resolution m) Resolution.space
  obtain ⟨u, hpaid⟩ := Chain.exists_systemTransfer (.resolution m) hwallet (hrent.trans hfunds)
    ht.supply
  obtain ⟨as', v, b, hrun', hanswer⟩ := canAnswer_of_signs ht (hmarket ▸ hmk) hopen horacle
    (hresolution ▸ hnone) hpaid hpinned hsigns
  exact ⟨as ++ as', v, b, hrun.append hrun', hanswer⟩

/-- **The authority of a market.** At most one key can answer for an open market of the attestation
validator exactly when the market has its receipt, or at most one key at all has signed an
observation: no key has to be pinned yet. -/
theorem authority_unique_iff {rt : Runtime} {s : Chain} {m keeper : Pubkey} {mk : Market}
    (hs : Reachable rt s) (hmk : s.market m = some mk) (hopen : mk.status = statusOpen)
    (horacle : mk.oracle = attestationValidatorId) (hkeeper : s.PaysAnswer rt keeper) :
    (∀ k₁ k₂, CanAnswer rt m s k₁ → CanAnswer rt m s k₂ → k₁ = k₂) ↔
      (∃ r, s.resolution m = some r) ∨ ∀ k₁ k₂, Signs rt k₁ → Signs rt k₂ → k₁ = k₂ := by
  constructor
  · intro hunique
    cases hr : s.resolution m with
    | some r => exact .inl ⟨r, rfl⟩
    | none =>
      have hanswer : ∀ k, Signs rt k → CanAnswer rt m s k :=
        fun k => canAnswer_of_pays hs hmk hopen horacle hr hkeeper
      exact .inr fun k₁ k₂ h₁ h₂ => hunique k₁ k₂ (hanswer k₁ h₁) (hanswer k₂ h₂)
  · rintro (⟨r, hr⟩ | hunique) k₁ k₂ h₁ h₂
    · have hnone := h₁.fresh
      rw [hr] at hnone
      cases hnone
    · exact hunique k₁ k₂ h₁.signs h₂.signs

namespace Sample

def operatorA : Pubkey :=
  ⟨[149, 200, 188, 231, 35, 212, 79, 155, 161, 29, 156, 144, 67, 63, 109, 244,
    94, 112, 156, 104, 197, 32, 85, 224, 184, 232, 122, 219, 173, 48, 223, 179], rfl⟩

def operatorB : Pubkey :=
  ⟨[117, 225, 130, 177, 168, 202, 112, 173, 248, 162, 232, 211, 14, 12, 238, 91,
    19, 105, 44, 146, 24, 214, 42, 110, 75, 116, 252, 231, 121, 22, 49, 22], rfl⟩

/-- An observation of BTC/USD after the close, read against 65000 dollars. -/
def observation (value : Int64) : AttestationValidator.Args where
  fixtureRef := ⟨[66, 84, 67, 47, 85, 83, 68] ++ List.replicate 9 0, rfl⟩
  statKey := 1
  op := 0
  threshold := 6500000000000
  value := value
  obsTs := 1700001005
  referenceTs := 1700001000
  windowSeconds := 60

/-- The signature of `operatorA` for 66000 dollars. -/
def signatureA : List.Vector UInt8 64 :=
  ⟨[126, 154, 87, 102, 164, 12, 168, 13, 72, 19, 112, 118, 148, 253, 64, 66,
    143, 232, 195, 234, 58, 177, 209, 77, 42, 186, 156, 156, 160, 23, 40, 103,
    187, 159, 244, 217, 211, 204, 59, 79, 243, 247, 117, 120, 167, 167, 32, 1,
    153, 32, 241, 24, 102, 128, 170, 251, 60, 229, 22, 218, 96, 51, 33, 0], rfl⟩

/-- The signature of `operatorB` for 60000 dollars. -/
def signatureB : List.Vector UInt8 64 :=
  ⟨[243, 152, 148, 87, 105, 236, 253, 14, 68, 232, 135, 197, 129, 181, 91, 51,
    28, 252, 124, 23, 206, 116, 84, 21, 90, 153, 78, 22, 242, 144, 53, 46,
    251, 64, 110, 236, 65, 57, 129, 159, 173, 226, 89, 220, 93, 168, 244, 127,
    126, 190, 59, 39, 94, 40, 200, 19, 117, 226, 24, 98, 47, 85, 114, 2], rfl⟩

/-- A world with the given signatures, by key, signature and message. -/
def attesting (signatures : List (Bytes × Bytes × Bytes)) : Runtime :=
  { runtime with ed25519Verify := fun k signature msg => decide ((k, signature, msg) ∈ signatures) }

def signedA : Bytes × Bytes × Bytes :=
  (operatorA.bytes, signatureA.1, (observation 6600000000000).message)

def signedB : Bytes × Bytes × Bytes :=
  (operatorB.bytes, signatureB.1, (observation 6000000000000).message)

/-- Both operators pin their keys, and the market is created. -/
def pinned : List Action :=
  [setUp, call (.initializeConfig alice operatorA), call (.initializeConfig bob operatorB),
    create 1700001000 attestationValidatorId]

/-- The market awaits its receipt and both keys are pinned. -/
def Attested (s : Chain) : Prop :=
  Awaits attestationValidatorId none s ∧ (s.config operatorA).isSome ∧ (s.config operatorB).isSome

instance : DecidablePred Attested := fun _ => inferInstanceAs (Decidable (_ ∧ _ ∧ _))

theorem exists_pinned : ∃ s, Reachable (attesting [signedA]) s ∧ Attested s := by
  have hrun : Action.runsTo (attesting [signedA]) pinned genesis Attested = true := by
    decide +kernel
  obtain ⟨s, hsteps, hattested⟩ := steps_of_runsTo hrun
  exact ⟨s, ⟨_, _, genesis_ok, hsteps⟩, hattested⟩

/-- The market awaits its receipt, the operator is not pinned, and carol has the rent of both
accounts. -/
def Unpinned (s : Chain) : Prop :=
  Awaits attestationValidatorId none s ∧ s.config operatorA = none ∧ (s.external carol).IsWallet ∧
    (runtime.minimumBalance Config.space).toNat + (runtime.minimumBalance Resolution.space).toNat ≤
      (s.lamports (.external carol)).toNat

instance : DecidablePred Unpinned := fun _ => inferInstanceAs (Decidable (_ ∧ _ ∧ _ ∧ _))

end Sample

/-- One operator has signed, and can pin its key yet. -/
theorem authority_unique_iff_sample :
    ∃ s, Reachable (Sample.attesting [Sample.signedA]) s ∧ Sample.Unpinned s ∧
      ∀ k₁ k₂, CanAnswer (Sample.attesting [Sample.signedA]) Sample.market s k₁ →
        CanAnswer (Sample.attesting [Sample.signedA]) Sample.market s k₂ → k₁ = k₂ := by
  have hrun : Action.runsTo (Sample.attesting [Sample.signedA])
      [Sample.setUp, Sample.create 1700001000 attestationValidatorId] Sample.genesis
      Sample.Unpinned = true := by decide +kernel
  obtain ⟨s, hsteps, hunpinned⟩ := steps_of_runsTo hrun
  have hs : Reachable (Sample.attesting [Sample.signedA]) s := ⟨_, _, Sample.genesis_ok, hsteps⟩
  obtain ⟨mk, hmk, hopen, horacle⟩ := hunpinned.1.market
  have hkeeper : s.PaysAnswer (Sample.attesting [Sample.signedA]) Sample.carol :=
    ⟨hunpinned.2.2.1, hunpinned.2.2.2⟩
  have honly : ∀ k, Signs (Sample.attesting [Sample.signedA]) k → k = Sample.operatorA := by
    rintro ⟨bytes, size⟩ ⟨a, signature, hverify⟩
    have hmem := List.mem_singleton.mp (of_decide_eq_true hverify)
    cases (Prod.mk.inj hmem).1
    rfl
  refine ⟨s, hs, hunpinned, (authority_unique_iff hs hmk hopen horacle hkeeper).mpr (.inr ?_)⟩
  intro k₁ k₂ h₁ h₂
  rw [honly k₁ h₁, honly k₂ h₂]

/-- Two operators answer for the same market, one YES and one NO, and either bundle is accepted. -/
theorem two_authorities :
    ∃ (rt : Runtime) (s : Chain) (mk : Market) (b₁ b₂ : Bundle), Reachable rt s ∧
      s.market Sample.market = some mk ∧ mk.oracle = attestationValidatorId ∧
      s.Pinned Sample.operatorA ∧ s.Pinned Sample.operatorB ∧
      Sample.operatorA ≠ Sample.operatorB ∧
      (b₁.market = Sample.market ∧ b₁.outcome = sideYes ∧ b₁.SignedBy Sample.operatorA ∧
        b₁.Settles rt s) ∧
      (b₂.market = Sample.market ∧ b₂.outcome = sideNo ∧ b₂.SignedBy Sample.operatorB ∧
        b₂.Settles rt s) := by
  let signatures := [Sample.signedA, Sample.signedB]
  have hrun : Action.runsTo (Sample.attesting [Sample.signedA, Sample.signedB]) Sample.pinned
      Sample.genesis Sample.Attested = true := by decide +kernel
  obtain ⟨s, hsteps, hattested⟩ := steps_of_runsTo hrun
  have hs : Reachable (Sample.attesting signatures) s := ⟨_, _, Sample.genesis_ok, hsteps⟩
  obtain ⟨mk, hmk, hopen, horacle⟩ := hattested.1.market
  obtain ⟨u, hpaid⟩ := hattested.1.paid
  have hnone : s.resolution Sample.market = none := Option.map_eq_none_iff.mp hattested.1.2.1
  have hA : s.Pinned Sample.operatorA := Option.isSome_iff_exists.mp hattested.2.1
  have hB : s.Pinned Sample.operatorB := Option.isSome_iff_exists.mp hattested.2.2
  have hyes : (attestedBundle Sample.carol Sample.market Sample.operatorA Sample.signatureA
      (Sample.observation 6600000000000) sideYes).Settles (Sample.attesting signatures) s :=
    attestedBundle_settles hs hmk hopen horacle hnone hpaid hA (by decide +kernel)
      ⟨by decide, by decide, by decide⟩ (.inl rfl) (by decide)
  have hno : (attestedBundle Sample.carol Sample.market Sample.operatorB Sample.signatureB
      (Sample.observation 6000000000000) sideNo).Settles (Sample.attesting signatures) s :=
    attestedBundle_settles hs hmk hopen horacle hnone hpaid hB (by decide +kernel)
      ⟨by decide, by decide, by decide⟩ (.inr rfl) (by decide)
  exact ⟨_, s, mk, _, _, hs, hmk, horacle, hA, hB, by decide,
    ⟨rfl, rfl, attestedBundle_signedBy .., hyes⟩, ⟨rfl, rfl, attestedBundle_signedBy .., hno⟩⟩

end Stoppage

import Stoppage.Session.Limits
import Stoppage.Chain.Layout
import Stoppage.Lib.Borsh
import Stoppage.Lib.Padding

/-! # `apps/web/lib/session-key/useSessionKey.ts`: the session key of the page

The hook, the storage of the browser and the chain as one system. A callback runs undisturbed up to
its next `await`, so each stretch between two of them is one action, and the calls, the check of the
chain, the transactions and everything else on the chain interleave freely. A keypair stands for its
public key, and times are whole numbers.
-/

namespace Stoppage.SessionKey
open Fallible LittleEndian TransitionSystem
set_option autoImplicit false

/-! ## What the hook keeps -/

/-- `SessionKeyState`, without the fields that nothing here reads. -/
structure SessionKeyState where
  keypair : Option Pubkey
  isActive : Bool
  createdAt : Option ℤ
  expiresAt : Option ℤ
  delegated : Bool
  restoring : Bool
  paused : Bool
  owner : Option Pubkey
deriving DecidableEq

def emptyState : SessionKeyState := ⟨none, false, none, none, false, false, false, none⟩

structure StoredSession where
  secret : Pubkey
  createdAt : ℤ
  expiresAt : ℤ
  owner : Option Pubkey
  paused : Bool
deriving DecidableEq

def sessionTimeoutMs : ℤ := 6 * 60 * 60 * 1000

/-- `deserialize`, and whether the session is restored. -/
def StoredSession.valid (st : StoredSession) (now : ℤ) : Prop :=
  st.expiresAt ≠ 0 ∧ now < st.expiresAt

instance (st : StoredSession) (now : ℤ) : Decidable (st.valid now) :=
  inferInstanceAs (Decidable (_ ∧ _))

def StoredSession.restored (st : StoredSession) : SessionKeyState where
  keypair := some st.secret
  isActive := !st.paused
  createdAt := some st.createdAt
  expiresAt := some st.expiresAt
  delegated := false
  restoring := !st.paused
  paused := st.paused
  owner := st.owner

def isSessionValid (now : ℤ) (state : SessionKeyState) : Bool :=
  state.isActive && state.expiresAt.any fun expiresAt => expiresAt ≠ 0 && now < expiresAt

def getSessionSigner (now : ℤ) (state : SessionKeyState) : Option Pubkey :=
  if isSessionValid now state && state.delegated then state.keypair else none

/-! ## Reading the grant -/

/-- The expiry and the revoked flag behind the allowlist, whose length is read first. -/
def grantTerms : Borsh.Reader (Int64 × UInt8) := do
  let _ ← Borsh.bytes (8 + 32 + 32)
  let vecLen ← Borsh.u32
  let _ ← Borsh.bytes (vecLen.toNat * 32 + 8 + 8 + 8)
  let expiresAt ← Borsh.i64
  let revoked ← Borsh.byte
  pure (expiresAt, revoked)

/-- The expiry of a grant that is not revoked, in seconds. A read that leaves the account throws,
which is caught like a failed request. -/
def fetchLiveGrant (info : Option Bytes) : Option ℤ := do
  let data ← info
  let (expiresAt, revoked) ← Borsh.run grantTerms data
  if revoked ≠ 0 then none else some expiresAt.toInt

/-- The account of a grant: its fields, filled up with zeros. -/
def grantAccount (chain : Chain) (owner k : Pubkey) : Option Bytes :=
  (chain.sessionGrant (owner, k)).map fun g => Padding.pad 0 SessionGrant.space g.data

theorem reads_grantTerms (g : SessionGrant) (h : g.allowedPrograms.length < 2 ^ 32) :
    Borsh.Reads grantTerms
      ((SessionGrant.discriminator ++ g.owner.bytes ++ g.sessionPubkey.bytes) ++
        (encodeU32 (UInt32.ofNat g.allowedPrograms.length) ++
          ((g.allowedPrograms.flatMap Pubkey.bytes ++ encodeU64 g.maxStakePerMarket ++
            encodeU64 g.maxTotalStake ++ encodeU64 g.stakedSoFar) ++
            (encodeI64 g.expiresAt ++ ([if g.revoked then 1 else 0] ++ [])))))
      (g.expiresAt, if g.revoked then 1 else 0) := by
  have hlength : (UInt32.ofNat g.allowedPrograms.length).toNat = g.allowedPrograms.length :=
    UInt32.toNat_ofNat_of_lt' h
  refine .bind (Borsh.reads_bytes ?_) (.bind (Borsh.reads_u32 _) (.bind (Borsh.reads_bytes ?_)
    (.bind (Borsh.reads_i64 _) (.bind (Borsh.reads_byte _) (.pure _)))))
  · simp only [List.length_append, Pubkey.size, SessionGrant.discriminator, List.length_cons,
      List.length_nil]
  · simp only [List.length_append, length_flatMap_bytes, length_encodeU64, hlength]

theorem fetchLiveGrant_data (g : SessionGrant) (rest : Bytes)
    (h : g.allowedPrograms.length < 2 ^ 32) :
    fetchLiveGrant (some (g.data ++ rest)) =
      if g.revoked then none else some g.expiresAt.toInt := by
  have hlength : encode 4 g.allowedPrograms.length =
      encodeU32 (UInt32.ofNat g.allowedPrograms.length) := by
    rw [encodeU32, UInt32.toNat_ofNat_of_lt' h]
  have hrun := (reads_grantTerms g h).run_append ([g.bump] ++ rest)
  have hdata : g.data ++ rest = ((SessionGrant.discriminator ++ g.owner.bytes ++
        g.sessionPubkey.bytes) ++ (encodeU32 (UInt32.ofNat g.allowedPrograms.length) ++
          ((g.allowedPrograms.flatMap Pubkey.bytes ++ encodeU64 g.maxStakePerMarket ++
            encodeU64 g.maxTotalStake ++ encodeU64 g.stakedSoFar) ++
            (encodeI64 g.expiresAt ++ ([if g.revoked then 1 else 0] ++ []))))) ++
      ([g.bump] ++ rest) := by
    simp only [SessionGrant.data, encodeBool, hlength, List.append_assoc, List.append_nil]
  rw [hdata]
  simp only [fetchLiveGrant, Option.bind_eq_bind, Option.bind_some, hrun]
  cases g.revoked <;> rfl

/-- The check finds every grant of the chain that is not revoked, whether or not it has expired. -/
theorem fetchLiveGrant_account {chain : Chain} {owner k : Pubkey} {g : SessionGrant}
    (hg : chain.sessionGrant (owner, k) = some g) (h : g.allowedPrograms.length < 2 ^ 32) :
    fetchLiveGrant (grantAccount chain owner k) =
      if g.revoked then none else some g.expiresAt.toInt := by
  rw [grantAccount, hg]
  exact fetchLiveGrant_data g _ h

/-! ## Grants over time -/

/-- When the grant of a wallet and a key expires, if there is one. -/
def expiry (chain : Chain) (key : Pubkey × Pubkey) : Option Int64 :=
  (chain.sessionGrant key).map SessionGrant.expiresAt

theorem expiry_eq_none {chain : Chain} {key : Pubkey × Pubkey} :
    expiry chain key = none ↔ chain.sessionGrant key = none := Option.map_eq_none_iff

def delegated (rt : Runtime) : Instruction → Option (Pubkey × Pubkey)
  | .delegateSessionKey owner session _ _ _ _ _ => some (owner, rt.key session)
  | _ => none

def revoked (rt : Runtime) : Instruction → Option (Pubkey × Pubkey)
  | .revokeSessionKey owner session => some (owner, rt.key session)
  | _ => none

/-- An instruction creates a grant where there is none, closes it, or leaves its expiry alone. -/
theorem expiry_exec {rt : Runtime} {ctx : TxContext} {ix : Instruction} {u v : Chain}
    (h : exec rt ctx ix u = .ok v) (key : Pubkey × Pubkey) :
    (delegated rt ix = some key ∧ expiry u key = none) ∨
      (revoked rt ix = some key ∧ expiry v key = none) ∨ expiry v key = expiry u key := by
  by_cases hkey : ix.grant rt = some key
  · cases ix with
    | delegateSessionKey =>
      cases hkey
      obtain ⟨_, _, hnone, -⟩ := MarketProgram.delegateSessionKey_ok h
      exact .inl ⟨rfl, expiry_eq_none.mpr hnone⟩
    | revokeSessionKey =>
      cases hkey
      obtain ⟨_, _, rfl⟩ := MarketProgram.revokeSessionKey_ok h
      exact .inr (.inl ⟨rfl, expiry_eq_none.mpr (Function.update_self _ _ _)⟩)
    | joinViaSessionKey =>
      cases hkey
      obtain ⟨g, g', _, _, _, _, _, hg, hspends, -, rfl⟩ := MarketProgram.joinViaSessionKey_ok h
      refine .inr (.inr ?_)
      simp only [expiry, hg, Function.update_self, Option.map_some]
      rw [hspends.rest]
    | _ => cases hkey
  · refine .inr (.inr ?_)
    rw [expiry, expiry, (exec_records h).1 key hkey]

/-- The wallet that must sign to write a grant. -/
def grantSigner : Action → Option Pubkey
  | .call _ (.delegateSessionKey owner _ _ _ _ _ _) => some owner
  | .call _ (.revokeSessionKey owner _) => some owner
  | _ => none

/-- What the wallet does not sign leaves the expiry of its grants alone. -/
theorem expiry_step {rt : Runtime} {a : Action} {u v : Chain} (h : Step rt u a v)
    {key : Pubkey × Pubkey} (hsigner : grantSigner a ≠ some key.1) :
    expiry v key = expiry u key := by
  obtain ⟨ctx, ix, rfl, hix⟩ | ⟨now, rfl, -, rfl⟩ | ⟨key, x, rfl, rfl⟩ := h.cases
  · obtain ⟨hd, -⟩ | ⟨hr, -⟩ | hsame := expiry_exec hix key
    · cases ix with
      | delegateSessionKey =>
        cases hd
        exact absurd rfl hsigner
      | _ => cases hd
    · cases ix with
      | revokeSessionKey =>
        cases hr
        exact absurd rfl hsigner
      | _ => cases hr
    · exact hsame
  · rfl
  · rfl

/-! ## Calls and checks -/

/-- `DelegateOptions` -/
structure DelegateOptions where
  allowedPrograms : Option (List Pubkey)
  maxStakePerMarket : Option ℤ
  maxTotalStake : Option ℤ
  ttlSeconds : Option ℤ
  fundLamports : Option ℤ

def noOptions : DelegateOptions := ⟨none, none, none, none, none⟩

def DelegateOptions.fund (opts : DelegateOptions) : ℤ := opts.fundLamports.getD 100000000

/-- The values that a call of `delegate` holds once it has its keypair. -/
structure Delegation where
  owner : Pubkey
  key : Pubkey
  createdAt : Option ℤ
  expiresAt : ℤ
  opts : DelegateOptions

def Delegation.target (d : Delegation) : Pubkey × Pubkey := (d.owner, d.key)

/-- `buildDelegateSessionKeyIx` -/
def Delegation.ix (d : Delegation) : Instruction :=
  .delegateSessionKey d.owner (.external d.key) (d.opts.allowedPrograms.getD [marketProgramId])
    (UInt64.ofInt (d.opts.maxStakePerMarket.getD 50000000))
    (UInt64.ofInt (d.opts.maxTotalStake.getD 100000000)) (Int64.ofInt d.expiresAt)
    (UInt64.ofInt d.opts.fund)

/-- A call at one of its `await`s: before the balance is known, and before and after its
transaction is sent. -/
inductive Call where
  | balance (owner : Pubkey) (keypair : Option Pubkey) (createdAt : Option ℤ)
      (opts : DelegateOptions)
  | delegate (d : Delegation) (sent : Bool)
  | revoke (owner k : Pubkey) (sent : Bool)

namespace Call

/-- The call is one of `delegate`. -/
def delegates : Call → Bool
  | .revoke _ _ _ => false
  | _ => true

/-- The keypair of a call of `delegate`, unless it is still to be generated. -/
def key : Call → Option Pubkey
  | .balance _ keypair _ _ => keypair
  | .delegate d _ => some d.key
  | .revoke _ _ _ => none

end Call

/-- A check of the chain that is not cancelled, and what it was answered. -/
structure Check where
  owner : Pubkey
  key : Pubkey
  answer : Option (Option ℤ)

structure Page where
  /-- `Date.now()` -/
  now : ℕ
  chain : Chain
  storage : Option StoredSession
  state : SessionKeyState
  wallet : Option Pubkey
  /-- What the callbacks of the last render close over. -/
  rendered : SessionKeyState × Option Pubkey
  check : Option Check
  calls : List (ℕ × Call)
  /-- The transactions under way, by the calls that sent them. -/
  sent : List (ℕ × Instruction)
  landed : List ℕ
  /-- The keypairs generated so far. -/
  generated : List Pubkey
  /-- Those that had been generated when the session was cleared. -/
  cleared : List Pubkey

namespace Page

def callOf (s : Page) (i : ℕ) : Option Call := s.calls.lookup i

def withoutCall (s : Page) (i : ℕ) : Page := { s with calls := s.calls.filter (·.1 ≠ i) }

def setCall (s : Page) (i : ℕ) (c : Call) : Page :=
  { s with calls := (i, c) :: s.calls.filter (·.1 ≠ i) }

/-- No call and no transaction has the number. -/
def unused (s : Page) (i : ℕ) : Prop :=
  i ∉ s.calls.map Prod.fst ∧ i ∉ s.sent.map Prod.fst ∧ i ∉ s.landed

instance (s : Page) (i : ℕ) : Decidable (s.unused i) := inferInstanceAs (Decidable (_ ∧ _))

/-! ## Effects -/

/-- The effect of the first render, on what the storage holds. -/
def mount (s : Page) : Page :=
  match s.storage with
  | none => { s with state := emptyState }
  | some st =>
    if st.valid s.now then { s with state := st.restored }
    else { s with storage := none, state := emptyState }

/-- A new page: nothing that ran on the old one goes on, but the transactions do. -/
def reload (s : Page) : Page :=
  { s with wallet := none, rendered := (emptyState, none), check := none, calls := [] }.mount

/-- The second effect, when it runs. -/
def startCheck (state : SessionKeyState) (wallet : Option Pubkey) : Option Check :=
  match state.keypair, wallet with
  | some key, some owner =>
    if state.delegated || state.paused then none
    else if state.owner.any (· ≠ owner) then none
    else some ⟨owner, key, none⟩
  | _, _ => none

/-- What the second effect depends on, besides the connection. -/
def dependencies (r : SessionKeyState × Option Pubkey) :
    Option Pubkey × Option Pubkey × Bool × Bool × Option Pubkey :=
  (r.2, r.1.keypair, r.1.delegated, r.1.paused, r.1.owner)

/-- A render; `connection` says that the connection is another object than before. -/
def render (s : Page) (connection : Bool) : Page :=
  { s with
    rendered := (s.state, s.wallet)
    check := if connection ∨ dependencies (s.state, s.wallet) ≠ dependencies s.rendered then
        startCheck s.state s.wallet
      else s.check }

def finishCheck (s : Page) (grant : Option ℤ) : Page :=
  match grant with
  | some expiresAtSec =>
    if s.now < expiresAtSec * 1000 then
      { s with
        check := none
        state :=
          { s.state with
            delegated := true
            restoring := false
            expiresAt := some (expiresAtSec * 1000) } }
    else { s with check := none, state := { s.state with restoring := false } }
  | none => { s with check := none, storage := none, state := emptyState }

/-! ## Callbacks -/

/-- `createSession`, with the wallet it closes over. -/
def createSession (s : Page) (owner k : Pubkey) : Page :=
  { s with
    generated := k :: s.generated
    storage := some ⟨k, s.now, s.now + sessionTimeoutMs, some owner, false⟩
    state := ⟨some k, true, some s.now, some (s.now + sessionTimeoutMs), false, false, false,
      some owner⟩ }

def clearSession (s : Page) : Page :=
  { s with storage := none, state := emptyState, cleared := s.generated }

/-- `pause`, which writes what the state holds. -/
def pause (s : Page) : Page :=
  match s.state.keypair with
  | none => s
  | some k =>
    { s with
      storage := some ⟨k, s.state.createdAt.getD s.now, s.state.expiresAt.getD s.now,
        s.state.owner, true⟩
      state :=
        { s.state with isActive := false, delegated := false, paused := true, restoring := false } }

/-- `delegate` up to its first `await`. -/
def delegate (s : Page) (i : ℕ) (opts : DelegateOptions) : Option Page :=
  match s.rendered.2 with
  | none => none
  | some owner =>
    if s.unused i then
      some (s.setCall i (.balance owner s.rendered.1.keypair s.rendered.1.createdAt opts))
    else none

/-- `delegate` once it has its keypair. -/
def build (s : Page) (i : ℕ) (owner k : Pubkey) (createdAt : Option ℤ) (opts : DelegateOptions) :
    Page :=
  let ttlSeconds := opts.ttlSeconds.getD (sessionTimeoutMs / 1000)
  s.setCall i (.delegate ⟨owner, k, createdAt, s.now / 1000 + ttlSeconds, opts⟩ false)

/-- `delegate` with the balance of the wallet; a keypair that it generates is `k`. -/
def balance (s : Page) (i : ℕ) (k : Pubkey) : Option Page :=
  match s.callOf i with
  | some (.balance owner keypair createdAt opts) =>
    if ((s.chain.lamports (.external owner)).toNat : ℤ) < opts.fund + 10000 then
      some (s.withoutCall i)
    else match keypair with
      | some key => some (s.build i owner key createdAt opts)
      | none =>
        if k ∉ s.generated ∧ (s.chain.sessionGrant (owner, k)).isNone then
          some ((s.createSession owner k).build i owner k createdAt opts)
        else none
  | _ => none

/-- `revoke` up to its first `await`. -/
def revoke (s : Page) (i : ℕ) : Option Page :=
  match s.rendered.2, s.rendered.1.keypair with
  | some owner, some k => if s.unused i then some (s.setCall i (.revoke owner k false)) else none
  | _, _ => none

/-- The wallet signs and sends the transaction of a call. -/
def send (s : Page) (i : ℕ) : Option Page :=
  match s.callOf i with
  | some (.delegate d false) =>
    some { s.setCall i (.delegate d true) with sent := (i, d.ix) :: s.sent }
  | some (.revoke owner k false) =>
    some { s.setCall i (.revoke owner k true) with
      sent := (i, .revokeSessionKey owner (.external k)) :: s.sent }
  | _ => none

/-- `delegate` behind its confirmation. -/
def confirmDelegate (s : Page) (d : Delegation) : Page :=
  { s with
    storage := some ⟨d.key, d.createdAt.getD s.now, d.expiresAt * 1000, some d.owner, false⟩
    state :=
      { s.state with
        delegated := true
        restoring := false
        paused := false
        isActive := true
        expiresAt := some (d.expiresAt * 1000)
        owner := some d.owner } }

/-- `confirmTransaction` resolves once the transaction is processed, also when it failed. -/
def confirm (s : Page) (i : ℕ) : Option Page :=
  if i ∈ s.landed then
    match s.callOf i with
    | some (.delegate d true) => some ((s.confirmDelegate d).withoutCall i)
    | some (.revoke _ _ true) => some (s.clearSession.withoutCall i)
    | _ => none
  else none

/-- The transaction of a call is processed; a failed one changes nothing. -/
def land (rt : Runtime) (s : Page) (i : ℕ) : Option Page :=
  (s.sent.lookup i).map fun ix =>
    { s with
      chain := (exec rt ⟨[ix], 0⟩ ix s.chain).toOption.getD s.chain
      sent := s.sent.filter (·.1 ≠ i)
      landed := i :: s.landed }

end Page

/-! ## The system -/

inductive Act
  | clock (now : ℕ)
  | connect (wallet : Option Pubkey)
  | render (connection : Bool)
  | reload
  /-- The request of the check is answered, or it fails. -/
  | read (ok : Bool)
  | finishCheck
  | delegate (i : ℕ) (opts : DelegateOptions)
  | resume (i : ℕ)
  | balance (i : ℕ) (k : Pubkey)
  | revoke (i : ℕ)
  | send (i : ℕ)
  | land (i : ℕ)
  /-- The transaction is never processed. -/
  | lose (i : ℕ)
  | confirm (i : ℕ)
  /-- What the call waits for throws. -/
  | fail (i : ℕ)
  | pause
  | clearSession
  /-- Anything else on the chain. -/
  | chain (a : Action)

/-- The wallets of the user sign for grants on this page only. -/
def Page.next (rt : Runtime) (wallets : List Pubkey) (s : Page) : Act → Option Page
  | .clock now => some { s with now := now }
  | .connect wallet => if wallet.all (· ∈ wallets) then some { s with wallet := wallet } else none
  | .render connection => some (s.render connection)
  | .reload => some s.reload
  | .read ok => (s.check.filter (·.answer.isNone)).map fun c =>
    let grant := if ok then fetchLiveGrant (grantAccount s.chain c.owner c.key) else none
    { s with check := some { c with answer := some grant } }
  | .finishCheck => (s.check.bind Check.answer).map s.finishCheck
  | .delegate i opts => s.delegate i opts
  | .resume i => s.delegate i noOptions
  | .balance i k => s.balance i k
  | .revoke i => s.revoke i
  | .send i => s.send i
  | .land i => s.land rt i
  | .lose i => some { s with sent := s.sent.filter (·.1 ≠ i) }
  | .confirm i => s.confirm i
  | .fail i => some (s.withoutCall i)
  | .pause => some s.pause
  | .clearSession => some s.clearSession
  | .chain a =>
    if (grantSigner a).any (· ∈ wallets) then none
    else (a.apply rt s.chain).toOption.map fun chain => { s with chain := chain }

namespace Page
variable {rt : Runtime} {s t : Page} {i : ℕ} {c : Call} {x : ℕ × Call}

/-! ## Calls by number -/

theorem mem_of_callOf (h : s.callOf i = some c) : (i, c) ∈ s.calls := by
  obtain ⟨before, after, hcalls, -⟩ := List.lookup_eq_some_iff.mp h
  rw [hcalls]
  exact List.mem_append_right _ List.mem_cons_self

theorem mem_withoutCall : x ∈ (s.withoutCall i).calls ↔ x ∈ s.calls ∧ x.1 ≠ i := by
  simp [withoutCall]

theorem mem_setCall : x ∈ (s.setCall i c).calls ↔ x = (i, c) ∨ x ∈ s.calls ∧ x.1 ≠ i := by
  simp [setCall]

/-- A processed transaction creates the grant that it was sent for, or closes one, or leaves the
expiries alone. -/
theorem land_expiry (h : s.land rt i = some t) (key : Pubkey × Pubkey) :
    (∃ ix, (i, ix) ∈ s.sent ∧ delegated rt ix = some key) ∨ expiry t.chain key = none ∨
      expiry t.chain key = expiry s.chain key := by
  obtain ⟨ix, hix, rfl⟩ := Option.map_eq_some_iff.mp h
  obtain ⟨before, after, hsent, -⟩ := List.lookup_eq_some_iff.mp hix
  have hmem : (i, ix) ∈ s.sent := by
    rw [hsent]
    exact List.mem_append_right _ List.mem_cons_self
  cases hexec : exec rt ⟨[ix], 0⟩ ix s.chain with
  | error e => exact .inr (.inr rfl)
  | ok chain =>
    obtain ⟨hd, -⟩ | ⟨-, hnone⟩ | hsame := expiry_exec hexec key
    · exact .inl ⟨ix, hmem, hd⟩
    · exact .inr (.inl hnone)
    · exact .inr (.inr hsame)

theorem land_now (h : s.land rt i = some t) : t.chain.now = s.chain.now := by
  obtain ⟨ix, -, rfl⟩ := Option.map_eq_some_iff.mp h
  cases hexec : exec rt ⟨[ix], 0⟩ ix s.chain with
  | error e => rfl
  | ok chain => exact (exec_near hexec).now

/-- What else happens on the chain takes time and leaves the grants of the user's wallets alone, up
to what is staked through them. -/
theorem next_chain {wallets : List Pubkey} {a : Action}
    (h : s.next rt wallets (.chain a) = some t) :
    ∃ chain, t = { s with chain := chain } ∧ s.chain.now ≤ chain.now ∧
      ∀ key : Pubkey × Pubkey, key.1 ∈ wallets → expiry chain key = expiry s.chain key := by
  rw [next] at h
  split at h
  · cases h
  · rename_i hsigner
    cases happly : a.apply rt s.chain with
    | error e =>
      rw [happly] at h
      cases h
    | ok chain =>
      rw [happly] at h
      cases h
      have hstep : Step rt s.chain a chain := happly
      refine ⟨chain, rfl, hstep.now_le, ?_⟩
      intro key hkey
      refine expiry_step hstep ?_
      intro hsigns
      rw [hsigns, Option.any_some, decide_eq_true_eq] at hsigner
      exact hsigner hkey

end Page

/-- Before the page is first opened. -/
structure Start (s : Page) : Prop where
  storage : s.storage = none
  state : s.state = emptyState
  rendered : s.rendered = (emptyState, none)
  wallet : s.wallet = none
  check : s.check = none
  calls : s.calls = []
  sent : s.sent = []
  generated : s.generated = []
  cleared : s.cleared = []

namespace Sample
open Stoppage.Sample (genesis bob carol)

def opening : Page where
  now := 1700000000000
  chain := genesis
  storage := none
  state := emptyState
  wallet := none
  rendered := (emptyState, none)
  check := none
  calls := []
  sent := []
  landed := []
  generated := []
  cleared := []

theorem opening_start : Start opening := ⟨rfl, rfl, rfl, rfl, rfl, rfl, rfl, rfl, rfl⟩

/-- Bob delegates to the new key carol, and the page is not rendered while he does. -/
def delegation : List Act :=
  [.connect (some bob), .render false, .delegate 0 noOptions, .balance 0 carol, .send 0, .land 0]

end Sample

end Stoppage.SessionKey

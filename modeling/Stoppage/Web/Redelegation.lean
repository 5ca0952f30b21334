import Stoppage.Web.SessionKey

/-! # Delegating again

A grant is kept under the wallet and the session key, and the program creates it only where there is
none. The hook delegates to the keypair it holds, which a session that was paused or has expired
still is. `never_collides` says for which calls the program finds no grant in its way.
-/

namespace Stoppage.SessionKey
open Fallible TransitionSystem
set_option autoImplicit false

/-! ## What a call aims at -/

namespace Call

def owner : Call → Pubkey
  | .balance owner _ _ _ => owner
  | .delegate d _ => d.owner
  | .revoke owner _ _ => owner

def hasSent : Call → Bool
  | .balance _ _ _ _ => false
  | .delegate _ sent => sent
  | .revoke _ _ sent => sent

/-- The grant that a call of `delegate` is going to send a transaction for. -/
def target : Call → Option (Pubkey × Pubkey)
  | .balance owner keypair _ _ => keypair.map fun k => (owner, k)
  | .delegate d sent => if sent then none else some d.target
  | .revoke _ _ _ => none

theorem target_of_hasSent {c : Call} (h : c.hasSent = true) : c.target = none := by
  cases c with
  | balance => cases h
  | delegate d sent => exact if_pos h
  | revoke => rfl

theorem target_spec {c : Call} {key : Pubkey × Pubkey} (h : c.target = some key) :
    c.owner = key.1 ∧ c.key = some key.2 := by
  cases c with
  | balance owner keypair createdAt opts =>
    obtain ⟨k, rfl, rfl⟩ := Option.map_eq_some_iff.mp h
    exact ⟨rfl, rfl⟩
  | delegate d sent =>
    cases sent with
    | true => cases h
    | false =>
      cases h
      exact ⟨rfl, rfl⟩
  | revoke => cases h

end Call

namespace Page
variable (rt : Runtime) (s : Page)

/-- The call with this number aims at a grant, or its transaction does. -/
def Aims (i : ℕ) (key : Pubkey × Pubkey) : Prop :=
  (∃ c, (i, c) ∈ s.calls ∧ c.target = some key) ∨ ∃ ix, (i, ix) ∈ s.sent ∧ delegated rt ix = some key

def Aimed (key : Pubkey × Pubkey) : Prop :=
  (∃ x ∈ s.calls, x.2.target = some key) ∨ ∃ x ∈ s.sent, delegated rt x.2 = some key

instance (key : Pubkey × Pubkey) : Decidable (s.Aimed rt key) :=
  inferInstanceAs (Decidable ((∃ x ∈ s.calls, _) ∨ ∃ x ∈ s.sent, _))

theorem Aims.aimed {rt : Runtime} {s : Page} {i : ℕ} {key : Pubkey × Pubkey} (h : s.Aims rt i key) :
    s.Aimed rt key := by
  rcases h with ⟨c, hc, htarget⟩ | ⟨ix, hix, hto⟩
  · exact .inl ⟨_, hc, htarget⟩
  · exact .inr ⟨_, hix, hto⟩

/-- The grant that `delegate` aims at with the keypair the hook has. -/
def renewed : Option (Pubkey × Pubkey) :=
  s.rendered.2.bind fun owner => s.rendered.1.keypair.map fun k => (owner, k)

/-- Every transaction of `delegate` finds no grant where it creates one, when it is sent and when it
is processed. -/
structure NoCollision (rt : Runtime) (s : Page) : Prop where
  sending : ∀ i d, s.callOf i = some (.delegate d false) → s.chain.sessionGrant d.target = none
  processing : ∀ i ix key, (i, ix) ∈ s.sent → delegated rt ix = some key →
    s.chain.sessionGrant key = none ∧ exec rt ⟨[ix], 0⟩ ix s.chain ≠ .error .accountInUse

end Page

/-- `delegate` and `resume` are called only while the hook has no keypair, or one that the wallet
has no grant for and no other call or transaction is creating one for. -/
def TakesFreshKeys (rt : Runtime) (s : Page) : Act → Prop
  | .delegate _ _ | .resume _ =>
    ∀ key ∈ s.renewed, (s.chain.sessionGrant key).isNone = true ∧ ¬ s.Aimed rt key
  | _ => True

instance (rt : Runtime) (s : Page) (a : Act) : Decidable (TakesFreshKeys rt s a) :=
  match a with
  | .delegate _ _ | .resume _ =>
    -- Keys are a finite type, which must not be searched.
    Option.decidableForallMem s.renewed
  | .clock _ | .connect _ | .render _ | .reload | .read _ | .finishCheck | .balance _ _
  | .revoke _ | .send _ | .land _ | .lose _ | .confirm _ | .fail _ | .pause | .clearSession
  | .chain _ => inferInstanceAs (Decidable True)

/-! ## The account of a grant -/

theorem systemTransfer_ne_accountInUse (chain : Chain) (source : Pubkey) (target : Address)
    (x : UInt64) : chain.systemTransfer source target x ≠ .error .accountInUse := by
  simp [Chain.systemTransfer, bind_eq_error, require_eq_error, BalanceSheet.transfer,
    BalanceSheet.debit_eq_error, BalanceSheet.credit_eq_error, pure, Except.pure]

/-- The program creates a grant where there is none without running into another account. -/
theorem not_accountInUse {rt : Runtime} {ix : Instruction} {chain : Chain} {key : Pubkey × Pubkey}
    (hix : delegated rt ix = some key) (hnone : chain.sessionGrant key = none) :
    exec rt ⟨[ix], 0⟩ ix chain ≠ .error .accountInUse := by
  cases ix with
  | delegateSessionKey owner session programs perMarket total expiresAt fund =>
    cases hix
    intro h
    have hfree : chain.owner (.sessionGrant owner (rt.key session)) = systemProgramId := by
      rw [Chain.owner, hnone]
      rfl
    rw [exec, MarketProgram.delegateSessionKey, Chain.initAccount, require_of hfree, ok_bind] at h
    obtain ⟨u, -, h⟩ := of_bind_error h (systemTransfer_ne_accountInUse _ _ _ _)
    obtain ⟨-, h⟩ := of_require_bind_error h (by decide)
    dsimp only at h
    split at h
    · obtain ⟨v, -, h⟩ := of_bind_error h (systemTransfer_ne_accountInUse _ _ _ _)
      cases h
    · cases h
  | _ => cases hix

/-! ## The invariant -/

/-- The keys of the page are among the generated ones, its wallets among the user's, and no two
calls aim at one grant or any at a grant that exists. -/
structure Sole (rt : Runtime) (wallets : List Pubkey) (s : Page) : Prop where
  wallet : ∀ w, s.wallet = some w ∨ s.rendered.2 = some w → w ∈ wallets
  known : ∀ k, s.state.keypair = some k ∨ s.rendered.1.keypair = some k ∨
    s.storage.map StoredSession.secret = some k → k ∈ s.generated
  calls : ∀ x ∈ s.calls, x.2.owner ∈ wallets ∧ ∀ k, x.2.key = some k → k ∈ s.generated
  sent : ∀ i ix c, (i, ix) ∈ s.sent → (i, c) ∈ s.calls → c.hasSent = true
  aims : ∀ i key, s.Aims rt i key → s.chain.sessionGrant key = none ∧ key.1 ∈ wallets ∧
    key.2 ∈ s.generated ∧ ∀ j, s.Aims rt j key → j = i

section Invariant
variable {rt : Runtime} {wallets : List Pubkey} {s t : Page} {i : ℕ}

theorem Sole.noCollision (h : Sole rt wallets s) : s.NoCollision rt := by
  refine ⟨?_, ?_⟩
  · intro i d hcall
    exact (h.aims i d.target (.inl ⟨_, Page.mem_of_callOf hcall, rfl⟩)).1
  · intro i ix key hix hto
    have hnone := (h.aims i key (.inr ⟨ix, hix, hto⟩)).1
    exact ⟨hnone, not_accountInUse hto hnone⟩

theorem Sole.start (h : Start s) : Sole rt wallets s := by
  refine ⟨?_, ?_, ?_, ?_, ?_⟩
  · simp [h.wallet, h.rendered]
  · simp [h.state, h.rendered, h.storage, emptyState]
  · simp [h.calls]
  · simp [h.sent]
  · simp [Page.Aims, h.calls, h.sent]

/-- The calls and transactions are among those before, and no grant that they aim at was created. -/
theorem Sole.congr (h : Sole rt wallets s)
    (hwallet : ∀ w, t.wallet = some w ∨ t.rendered.2 = some w → w ∈ wallets)
    (hknown : ∀ k, t.state.keypair = some k ∨ t.rendered.1.keypair = some k ∨
      t.storage.map StoredSession.secret = some k → k ∈ s.generated)
    (hcalls : ∀ x ∈ t.calls, x ∈ s.calls) (hsent : ∀ x ∈ t.sent, x ∈ s.sent)
    (hgenerated : t.generated = s.generated)
    (hgrants : ∀ i key, t.Aims rt i key → key.1 ∈ wallets → s.chain.sessionGrant key = none →
      t.chain.sessionGrant key = none) : Sole rt wallets t := by
  have haims : ∀ i key, t.Aims rt i key → s.Aims rt i key := by
    rintro i key (⟨c, hc, htarget⟩ | ⟨ix, hix, hto⟩)
    · exact .inl ⟨c, hcalls _ hc, htarget⟩
    · exact .inr ⟨ix, hsent _ hix, hto⟩
  refine ⟨hwallet, ?_, ?_, ?_, ?_⟩
  · rw [hgenerated]
    exact hknown
  · rw [hgenerated]
    exact fun x hx => h.calls x (hcalls x hx)
  · exact fun i ix c hix hc => h.sent i ix c (hsent _ hix) (hcalls _ hc)
  · intro i key haim
    obtain ⟨hnone, howner, hk, hsole⟩ := h.aims i key (haims i key haim)
    rw [hgenerated]
    exact ⟨hgrants i key haim howner hnone, howner, hk, fun j hj => hsole j (haims j key hj)⟩

/-- A step that leaves the calls, the transactions and the chain alone. -/
theorem Sole.frame (h : Sole rt wallets s)
    (hwallet : ∀ w, t.wallet = some w ∨ t.rendered.2 = some w → w ∈ wallets)
    (hknown : ∀ k, t.state.keypair = some k ∨ t.rendered.1.keypair = some k ∨
      t.storage.map StoredSession.secret = some k → k ∈ s.generated)
    (hcalls : t.calls = s.calls) (hsent : t.sent = s.sent) (hgenerated : t.generated = s.generated)
    (hchain : t.chain = s.chain) : Sole rt wallets t := by
  refine h.congr hwallet hknown ?_ ?_ hgenerated ?_
  · rw [hcalls]
    exact fun _ => id
  · rw [hsent]
    exact fun _ => id
  · rw [hchain]
    exact fun _ _ _ _ => id

theorem Sole.setCall (h : Sole rt wallets s) {c : Call} (howner : c.owner ∈ wallets)
    (hkey : ∀ k, c.key = some k → k ∈ s.generated)
    (hsent : ∀ ix, (i, ix) ∈ s.sent → c.hasSent = true)
    (htarget : ∀ key, c.target = some key →
      s.chain.sessionGrant key = none ∧ ∀ j, s.Aims rt j key → j = i) :
    Sole rt wallets (s.setCall i c) := by
  have haims : ∀ j key, (s.setCall i c).Aims rt j key →
      (j = i ∧ c.target = some key) ∨ s.Aims rt j key := by
    rintro j key (⟨c', hc', hto⟩ | hix)
    · rcases Page.mem_setCall.mp hc' with heq | ⟨hc', -⟩
      · cases heq
        exact .inl ⟨rfl, hto⟩
      · exact .inr (.inl ⟨c', hc', hto⟩)
    · exact .inr (.inr hix)
  refine ⟨h.wallet, h.known, ?_, ?_, ?_⟩
  · intro x hx
    rcases Page.mem_setCall.mp hx with rfl | ⟨hx, -⟩
    · exact ⟨howner, hkey⟩
    · exact h.calls x hx
  · intro j ix c' hix hc'
    rcases Page.mem_setCall.mp hc' with heq | ⟨hc', -⟩
    · cases heq
      exact hsent ix hix
    · exact h.sent j ix c' hix hc'
  · intro j key haim
    rcases haims j key haim with ⟨rfl, hto⟩ | hold
    · obtain ⟨hnone, hsole⟩ := htarget key hto
      obtain ⟨ho, hk⟩ := Call.target_spec hto
      refine ⟨hnone, ho ▸ howner, hkey _ hk, ?_⟩
      intro j' haim'
      rcases haims j' key haim' with ⟨rfl, -⟩ | hold'
      · rfl
      · exact hsole j' hold'
    · obtain ⟨hnone, hw, hk, hsole⟩ := h.aims j key hold
      refine ⟨hnone, hw, hk, ?_⟩
      intro j' haim'
      rcases haims j' key haim' with ⟨rfl, hto⟩ | hold'
      · exact ((htarget key hto).2 j hold).symm
      · exact hsole j' hold'

/-! ## Steps -/

theorem Sole.withoutCall (h : Sole rt wallets s) : Sole rt wallets (s.withoutCall i) :=
  h.congr h.wallet h.known (fun _ hx => (Page.mem_withoutCall.mp hx).1) (fun _ => id) rfl
    fun _ _ _ _ => id

theorem Sole.reload (h : Sole rt wallets s) : Sole rt wallets s.reload := by
  have hno : ∀ x ∈ ([] : List (ℕ × Call)), x ∈ s.calls := fun x hx => absurd hx List.not_mem_nil
  have hempty : ∀ storage : Option StoredSession, (storage = s.storage ∨ storage = none) →
      ∀ k, emptyState.keypair = some k ∨ emptyState.keypair = some k ∨
        storage.map StoredSession.secret = some k → k ∈ s.generated := by
    rintro storage hstorage k (hk | hk | hk)
    · cases hk
    · cases hk
    · rcases hstorage with rfl | rfl
      · exact h.known k (.inr (.inr hk))
      · cases hk
  rw [Page.reload, Page.mount]
  split
  · exact h.congr nofun (hempty _ (.inl rfl)) hno (fun _ => id) rfl fun _ _ _ _ => id
  · rename_i st hst
    split
    · refine h.congr nofun ?_ hno (fun _ => id) rfl fun _ _ _ _ => id
      have hsecret : s.storage.map StoredSession.secret = some st.secret := congrArg _ hst
      rintro k (hk | hk | hk)
      · exact h.known k (.inr (.inr (hsecret.trans hk)))
      · cases hk
      · exact h.known k (.inr (.inr hk))
    · exact h.congr nofun (hempty _ (.inr rfl)) hno (fun _ => id) rfl fun _ _ _ _ => id

theorem Sole.dropped (h : Sole rt wallets s) {check : Option Check} {cleared : List Pubkey} :
    Sole rt wallets { s with
      check := check, storage := none, state := emptyState, cleared := cleared } := by
  refine h.frame h.wallet ?_ rfl rfl rfl rfl
  rintro k (hk | hk | hk)
  · cases hk
  · exact h.known k (.inr (.inl hk))
  · cases hk

theorem Sole.finishCheck (h : Sole rt wallets s) (grant : Option ℤ) :
    Sole rt wallets (s.finishCheck grant) := by
  cases grant with
  | none => exact h.dropped
  | some expiresAtSec =>
    rw [Page.finishCheck]
    split
    · exact h.frame h.wallet h.known rfl rfl rfl rfl
    · exact h.frame h.wallet h.known rfl rfl rfl rfl

theorem Sole.pause (h : Sole rt wallets s) : Sole rt wallets s.pause := by
  rw [Page.pause]
  split
  · exact h
  · rename_i k hkey
    refine h.frame h.wallet ?_ rfl rfl rfl rfl
    rintro k' (hk | hk | hk)
    · exact h.known k' (.inl hk)
    · exact h.known k' (.inr (.inl hk))
    · exact h.known k' (.inl (hkey.trans hk))

theorem Sole.delegate (h : Sole rt wallets s) {opts : DelegateOptions}
    (ht : s.delegate i opts = some t) (hfresh : TakesFreshKeys rt s (.delegate i opts)) :
    Sole rt wallets t := by
  rw [Page.delegate] at ht
  split at ht
  · cases ht
  · rename_i owner howner
    obtain ⟨hunused, ht⟩ := Option.ite_none_right_eq_some.mp ht
    cases ht
    refine h.setCall (h.wallet _ (.inr howner)) (fun k hk => h.known k (.inr (.inl hk))) ?_ ?_
    · intro ix hix
      exact absurd (List.mem_map_of_mem hix) hunused.2.1
    · intro key hto
      obtain ⟨k, hk, rfl⟩ := Option.map_eq_some_iff.mp hto
      have hrenewed : s.renewed = some (owner, k) := by
        rw [Page.renewed, howner, Option.bind_some]
        exact hto
      obtain ⟨hnone, haimed⟩ := hfresh (owner, k) hrenewed
      exact ⟨Option.isNone_iff_eq_none.mp hnone, fun j hj => absurd hj.aimed haimed⟩

/-- A keypair that is just generated has no grant, and nothing aims at one. -/
theorem Sole.createSession (h : Sole rt wallets s) {owner k : Pubkey} :
    Sole rt wallets (s.createSession owner k) := by
  refine ⟨h.wallet, ?_, ?_, h.sent, ?_⟩
  · rintro k' (hk | hk | hk)
    · cases hk
      exact List.mem_cons_self
    · exact List.mem_cons_of_mem _ (h.known k' (.inr (.inl hk)))
    · cases hk
      exact List.mem_cons_self
  · intro x hx
    obtain ⟨howner, hkey⟩ := h.calls x hx
    exact ⟨howner, fun k' hk' => List.mem_cons_of_mem _ (hkey k' hk')⟩
  · intro j key haim
    obtain ⟨hnone, howner, hk, hsole⟩ := h.aims j key haim
    exact ⟨hnone, howner, List.mem_cons_of_mem _ hk, hsole⟩

theorem Sole.balance (h : Sole rt wallets s) {k : Pubkey} (ht : s.balance i k = some t) :
    Sole rt wallets t := by
  rw [Page.balance] at ht
  split at ht
  · rename_i owner keypair createdAt opts hcall
    have hmem := Page.mem_of_callOf hcall
    obtain ⟨howner, hkey⟩ := h.calls _ hmem
    have hsent : ∀ ix, (i, ix) ∉ s.sent := by
      intro ix hix
      exact absurd (h.sent i ix _ hix hmem) Bool.false_ne_true
    split at ht
    · cases ht
      exact h.withoutCall
    · cases hkeypair : keypair with
      | some key =>
        subst hkeypair
        cases ht
        have haim := h.aims i (owner, key) (.inl ⟨_, hmem, rfl⟩)
        refine h.setCall howner hkey (fun ix hix => absurd hix (hsent ix)) ?_
        rintro _ ⟨⟩
        exact ⟨haim.1, haim.2.2.2⟩
      | none =>
        subst hkeypair
        obtain ⟨⟨hfresh, hnone⟩, ht⟩ := Option.ite_none_right_eq_some.mp ht
        cases ht
        refine h.createSession.setCall howner ?_ (fun ix hix => absurd hix (hsent ix)) ?_
        · rintro _ ⟨⟩
          exact List.mem_cons_self
        · rintro _ ⟨⟩
          refine ⟨Option.isNone_iff_eq_none.mp hnone, ?_⟩
          intro j hj
          exact absurd (h.aims j (owner, k) hj).2.2.1 hfresh
  · cases ht

theorem Sole.revoke (h : Sole rt wallets s) (ht : s.revoke i = some t) : Sole rt wallets t := by
  rw [Page.revoke] at ht
  split at ht
  · rename_i owner k howner hkey
    obtain ⟨hunused, ht⟩ := Option.ite_none_right_eq_some.mp ht
    cases ht
    refine h.setCall (h.wallet _ (.inr howner)) nofun ?_ nofun
    intro ix hix
    exact absurd (List.mem_map_of_mem hix) hunused.2.1
  · cases ht

/-! ## Transactions -/

/-- The transaction of a call takes the place of the call. -/
theorem Sole.sent_of_call (h : Sole rt wallets s) {c c' : Call} {ix : Instruction}
    (hcall : s.callOf i = some c) (howner : c'.owner = c.owner) (hkey : c'.key = c.key)
    (hsent : c'.hasSent = true) (hix : delegated rt ix = c.target) :
    Sole rt wallets { s.setCall i c' with sent := (i, ix) :: s.sent } := by
  have hmem := Page.mem_of_callOf hcall
  obtain ⟨hw, hk⟩ := h.calls _ hmem
  have hset : Sole rt wallets (s.setCall i c') := by
    refine h.setCall (howner ▸ hw) (hkey ▸ hk) (fun _ _ => hsent) ?_
    intro key hto
    rw [Call.target_of_hasSent hsent] at hto
    cases hto
  have haims : ∀ j key, Page.Aims rt { s.setCall i c' with sent := (i, ix) :: s.sent } j key →
      s.Aims rt j key := by
    rintro j key (⟨d, hd, hto⟩ | ⟨jx, hjx, hto⟩)
    · rcases Page.mem_setCall.mp hd with heq | ⟨hd, -⟩
      · cases heq
        rw [Call.target_of_hasSent hsent] at hto
        cases hto
      · exact .inl ⟨d, hd, hto⟩
    · rcases List.mem_cons.mp hjx with heq | hjx
      · cases heq
        exact .inl ⟨c, hmem, hix ▸ hto⟩
      · exact .inr ⟨jx, hjx, hto⟩
  refine ⟨hset.wallet, hset.known, hset.calls, ?_, ?_⟩
  · intro j jx d hjx hd
    rcases List.mem_cons.mp hjx with heq | hjx
    · cases heq
      rcases Page.mem_setCall.mp hd with heq | ⟨-, hne⟩
      · cases heq
        exact hsent
      · exact absurd rfl hne
    · exact hset.sent j jx d hjx hd
  · intro j key haim
    obtain ⟨hnone, hw, hk, hsole⟩ := h.aims j key (haims j key haim)
    exact ⟨hnone, hw, hk, fun j' hj' => hsole j' (haims j' key hj')⟩

theorem Sole.send (h : Sole rt wallets s) (ht : s.send i = some t) : Sole rt wallets t := by
  rw [Page.send] at ht
  split at ht
  · rename_i d hcall
    cases ht
    exact h.sent_of_call hcall rfl rfl rfl rfl
  · rename_i owner k hcall
    cases ht
    exact h.sent_of_call hcall rfl rfl rfl rfl
  · cases ht

/-- The grant that a transaction creates is one that nothing else aims at. -/
theorem Sole.land (h : Sole rt wallets s) (ht : s.land rt i = some t) : Sole rt wallets t := by
  have hexpiry := Page.land_expiry ht
  obtain ⟨ix, -, rfl⟩ := Option.map_eq_some_iff.mp ht
  refine h.congr h.wallet h.known (fun _ => id) (fun _ => List.mem_of_mem_filter) rfl ?_
  rintro j key haim - hnone
  obtain ⟨ix', hix', hto⟩ | hgone | hsame := hexpiry key
  · rcases haim with ⟨c, hc, htarget⟩ | ⟨jx, hjx, hto'⟩
    · have hj : j = i :=
        (h.aims i key (.inr ⟨ix', hix', hto⟩)).2.2.2 j (.inl ⟨c, hc, htarget⟩)
      subst hj
      rw [Call.target_of_hasSent (h.sent j ix' c hix' hc)] at htarget
      cases htarget
    · obtain ⟨hjx, hne⟩ := List.mem_filter.mp hjx
      have hj : j = i :=
        (h.aims i key (.inr ⟨ix', hix', hto⟩)).2.2.2 j (.inr ⟨jx, hjx, hto'⟩)
      exact absurd hj (of_decide_eq_true hne)
  · exact expiry_eq_none.mp hgone
  · rw [← expiry_eq_none, hsame, expiry_eq_none]
    exact hnone

theorem Sole.confirm (h : Sole rt wallets s) (ht : s.confirm i = some t) : Sole rt wallets t := by
  obtain ⟨-, ht⟩ := Option.ite_none_right_eq_some.mp ht
  split at ht
  · rename_i d hcall
    cases ht
    have hconfirmed : Sole rt wallets (s.confirmDelegate d) := by
      refine h.frame h.wallet ?_ rfl rfl rfl rfl
      rintro k (hk | hk | hk)
      · exact h.known k (.inl hk)
      · exact h.known k (.inr (.inl hk))
      · exact (h.calls _ (Page.mem_of_callOf hcall)).2 k hk
    exact hconfirmed.withoutCall
  · cases ht
    exact h.dropped.withoutCall
  · cases ht

theorem Sole.next (h : Sole rt wallets s) {a : Act} (hfresh : TakesFreshKeys rt s a)
    (ht : s.next rt wallets a = some t) : Sole rt wallets t := by
  cases a with
  | clock now =>
    cases ht
    exact h.frame h.wallet h.known rfl rfl rfl rfl
  | connect wallet =>
    obtain ⟨hall, ht⟩ := Option.ite_none_right_eq_some.mp ht
    cases ht
    refine h.frame ?_ h.known rfl rfl rfl rfl
    rintro w (rfl | hw)
    · exact of_decide_eq_true hall
    · exact h.wallet w (.inr hw)
  | render connection =>
    cases ht
    refine h.frame ?_ ?_ rfl rfl rfl rfl
    · rintro w (hw | hw)
      · exact h.wallet w (.inl hw)
      · exact h.wallet w (.inl hw)
    · rintro k (hk | hk | hk)
      · exact h.known k (.inl hk)
      · exact h.known k (.inl hk)
      · exact h.known k (.inr (.inr hk))
  | reload =>
    cases ht
    exact h.reload
  | read ok =>
    obtain ⟨c, -, rfl⟩ := Option.map_eq_some_iff.mp ht
    exact h.frame h.wallet h.known rfl rfl rfl rfl
  | finishCheck =>
    obtain ⟨grant, -, rfl⟩ := Option.map_eq_some_iff.mp ht
    exact h.finishCheck grant
  | delegate i opts => exact h.delegate ht hfresh
  | resume i => exact h.delegate ht hfresh
  | balance i k => exact h.balance ht
  | revoke i => exact h.revoke ht
  | send i => exact h.send ht
  | land i => exact h.land ht
  | lose i =>
    cases ht
    exact h.congr h.wallet h.known (fun _ => id) (fun _ => List.mem_of_mem_filter) rfl
      fun _ _ _ _ => id
  | confirm i => exact h.confirm ht
  | fail i =>
    cases ht
    exact h.withoutCall
  | pause =>
    cases ht
    exact h.pause
  | clearSession =>
    cases ht
    exact h.dropped
  | chain a =>
    obtain ⟨chain, rfl, -, hexpiry⟩ := Page.next_chain ht
    refine h.congr h.wallet h.known (fun _ => id) (fun _ => id) rfl ?_
    intro _ key _ howner hnone
    rw [← expiry_eq_none, hexpiry key howner, expiry_eq_none]
    exact hnone

end Invariant

/-! ## Runs -/

/-- No delegation runs into a grant, in any run in which `delegate` and `resume` are called with
fresh keys only. -/
theorem never_collides {rt : Runtime} {wallets : List Pubkey} {s t : Page} {as : List Act}
    (hstart : Start s) (h : Steps (guarded (fun s a t => s.next rt wallets a = some t)
      (TakesFreshKeys rt)) s as t) : t.NoCollision rt := by
  have hsole : Sole rt wallets t :=
    h.invariant (fun _ _ _ _ hst hs => hs.next hst.2 hst.1) (.start hstart)
  exact hsole.noCollision

namespace Sample
open Stoppage.Sample (runtime bob carol)

/-- Bob pauses the session that he delegated to, and resumes it. -/
def resumption : List Act :=
  delegation ++ [.confirm 0, .pause, .render false, .resume 1, .balance 1 carol]

theorem never_collides_sample :
    ∃ t, Start opening ∧ Steps (guarded (fun s a t => s.next runtime [bob] a = some t)
        (TakesFreshKeys runtime)) opening delegation t ∧ t.chain.sessionGrant (bob, carol) ≠ none ∧
      t.NoCollision runtime := by
  have hreaches : reaches (Page.next runtime [bob]) (TakesFreshKeys runtime)
      (fun t => (t.chain.sessionGrant (bob, carol)).isSome = true) delegation opening = true := by
    decide +kernel
  obtain ⟨t, hrun, hgrant⟩ := steps_of_reaches hreaches
  exact ⟨t, opening_start, hrun, Option.isSome_iff_ne_none.mp hgrant,
    never_collides opening_start hrun⟩

def inUse : Except ProgramError Chain → Bool
  | .error .accountInUse => true
  | _ => false

theorem eq_of_inUse {r : Except ProgramError Chain} (h : inUse r = true) :
    r = .error .accountInUse := by
  cases r with
  | ok chain => cases h
  | error e =>
    cases e with
    | accountInUse => rfl
    | _ => cases h

/-- Whether the user's first call sends a delegation that the chain refuses for its address. -/
def refused (t : Page) : Bool :=
  match t.callOf 1 with
  | some (.delegate d false) => (t.chain.sessionGrant d.target).isSome &&
    inUse (exec runtime ⟨[d.ix], 0⟩ d.ix t.chain)
  | _ => false

/-- Resuming a paused session delegates to the key it has, whose grant is still there. -/
theorem resume_collides :
    ∃ t d, Start opening ∧
      Steps (fun s a t => s.next runtime [bob] a = some t) opening resumption t ∧
      t.callOf 1 = some (.delegate d false) ∧
      exec runtime ⟨[d.ix], 0⟩ d.ix t.chain = .error .accountInUse ∧ ¬ t.NoCollision runtime := by
  have hreaches : reaches (Page.next runtime [bob]) (fun _ _ => True)
      (fun t => refused t = true) resumption opening = true := by decide +kernel
  obtain ⟨t, hrun, hend⟩ := steps_of_reaches hreaches
  unfold refused at hend
  split at hend
  · rename_i d hcall
    rw [Bool.and_eq_true] at hend
    refine ⟨t, d, opening_start, hrun.of_guarded, hcall, eq_of_inUse hend.2, ?_⟩
    intro hfree
    rw [hfree.sending 1 d hcall] at hend
    cases hend.1
  · cases hend

end Sample

end Stoppage.SessionKey

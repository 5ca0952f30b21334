import Stoppage.Chain.Ledger
import Stoppage.Lib.Footprint

/-! # The chain account by account

Two chains have the same at an address when they have the same account there, with its lamports. The
graft of a chain onto another takes the accounts of a list from the one and all others from the
other. An operation of the runtime on accounts of the list does to a graft what it does to the chain
that was grafted.
-/

namespace Stoppage
open Fallible BalanceSheet Footprint
set_option autoImplicit false

namespace Chain

/-! ## Accounts -/

/-- The account at an address. The treasury has no data, but it is there once the protocol is. -/
def SameAccount (s t : Chain) : Address → Prop
  | .external k => s.external k = t.external k
  | .market m => s.market m = t.market m
  | .position m o => s.position (m, o) = t.position (m, o)
  | .sessionGrant o k => s.sessionGrant (o, k) = t.sessionGrant (o, k)
  | .pricingReceipt m => s.pricingReceipt m = t.pricingReceipt m
  | .resolution m => s.resolution m = t.resolution m
  | .strayResolution k => s.strayResolution k = t.strayResolution k
  | .config a => s.config a = t.config a
  | .protocolConfig => s.protocolConfig = t.protocolConfig
  | .agentAuthority => s.agentAuthority = t.agentAuthority
  | .treasury => s.protocolConfig.isSome = t.protocolConfig.isSome

/-- The clock is a place as well. -/
def Same (s t : Chain) : Option Address → Prop
  | none => s.now = t.now
  | some a => s.lamports a = t.lamports a ∧ s.SameAccount t a

theorem SameAccount.refl (s : Chain) (a : Address) : s.SameAccount s a := by cases a <;> rfl

theorem SameAccount.symm {s t : Chain} {a : Address} (h : s.SameAccount t a) :
    t.SameAccount s a := by
  cases a <;> exact Eq.symm h

theorem SameAccount.trans {s t u : Chain} {a : Address} (h : s.SameAccount t a)
    (h' : t.SameAccount u a) : s.SameAccount u a := by
  cases a <;> exact Eq.trans h h'

/-- Chains that have the same at every place have the same but for the log. -/
theorem eq_of_same {s t : Chain} (h : ∀ p, s.Same t p) (hevents : s.events = t.events) : s = t := by
  have hnow : s.now = t.now := h none
  have hlamports : s.lamports = t.lamports := funext fun a => (h (some a)).1
  have hdata (a : Address) : s.SameAccount t a := (h (some a)).2
  have hgrant : s.sessionGrant = t.sessionGrant := funext fun k => hdata (.sessionGrant k.1 k.2)
  have hmarket : s.market = t.market := funext fun m => hdata (.market m)
  have hposition : s.position = t.position := funext fun k => hdata (.position k.1 k.2)
  have hreceipt : s.pricingReceipt = t.pricingReceipt := funext fun m => hdata (.pricingReceipt m)
  have hresolution : s.resolution = t.resolution := funext fun m => hdata (.resolution m)
  have hstray : s.strayResolution = t.strayResolution := funext fun k => hdata (.strayResolution k)
  have hconfig : s.config = t.config := funext fun a => hdata (.config a)
  have hexternal : s.external = t.external := funext fun k => hdata (.external k)
  cases s
  cases t
  rw [Chain.mk.injEq]
  exact ⟨hnow, hlamports, hdata .protocolConfig, hdata .agentAuthority, hgrant, hmarket, hposition,
    hreceipt, hresolution, hstray, hconfig, hexternal, hevents⟩

/-- The chain as a store: the accounts and the clock, and the log of events. -/
def store : Store Chain (Option Address) Event where
  same a s t := s.Same t a
  log := events
  equivalence a := by
    cases a with
    | none => exact ⟨fun _ => rfl, Eq.symm, Eq.trans⟩
    | some a =>
      exact ⟨fun s => ⟨rfl, .refl s a⟩, fun h => ⟨h.1.symm, h.2.symm⟩,
        fun h h' => ⟨h.1.trans h'.1, h.2.trans h'.2⟩⟩

/-! ## Grafts -/

/-- The chain `s` at the accounts of `F` and the chain `t` at all others, with the log of `s` behind
that of `t`. -/
def graft (F : List Address) (s t : Chain) : Chain where
  now := s.now
  lamports a := if a ∈ F then s.lamports a else t.lamports a
  protocolConfig := if .protocolConfig ∈ F then s.protocolConfig else t.protocolConfig
  agentAuthority := if .agentAuthority ∈ F then s.agentAuthority else t.agentAuthority
  sessionGrant k := if .sessionGrant k.1 k.2 ∈ F then s.sessionGrant k else t.sessionGrant k
  market m := if .market m ∈ F then s.market m else t.market m
  position k := if .position k.1 k.2 ∈ F then s.position k else t.position k
  pricingReceipt m := if .pricingReceipt m ∈ F then s.pricingReceipt m else t.pricingReceipt m
  resolution m := if .resolution m ∈ F then s.resolution m else t.resolution m
  strayResolution k := if .strayResolution k ∈ F then s.strayResolution k else t.strayResolution k
  config a := if .config a ∈ F then s.config a else t.config a
  external k := if .external k ∈ F then s.external k else t.external k
  events := t.events ++ s.events

/-- Both chains have a protocol, or neither, if it matters. -/
def Fits (F : List Address) (s t : Chain) : Prop :=
  .treasury ∈ F → .protocolConfig ∈ F ∨ s.protocolConfig.isSome = t.protocolConfig.isSome

section Graft
variable {F : List Address} {s t : Chain} {a : Address}

theorem update_ite {κ β : Type} [DecidableEq κ] {p : κ → Prop} [DecidablePred p] {f g : κ → β}
    {k : κ} (hk : p k) (v : β) : Function.update (fun x => if p x then f x else g x) k v =
      fun x => if p x then Function.update f k v x else g x := by
  funext x
  by_cases hx : x = k
  · subst hx
    rw [Function.update_self, if_pos hk, Function.update_self]
  · rw [Function.update_of_ne hx, Function.update_of_ne hx]

theorem graft_lamports (ha : a ∈ F) : (s.graft F t).lamports a = s.lamports a := if_pos ha

theorem graft_market {m : Pubkey} (h : .market m ∈ F) : (s.graft F t).market m = s.market m :=
  if_pos h

theorem graft_position {m o : Pubkey} (h : .position m o ∈ F) :
    (s.graft F t).position (m, o) = s.position (m, o) := if_pos h

theorem graft_protocolConfig (h : .protocolConfig ∈ F) :
    (s.graft F t).protocolConfig = s.protocolConfig := if_pos h

theorem graft_agentAuthority (h : .agentAuthority ∈ F) :
    (s.graft F t).agentAuthority = s.agentAuthority := if_pos h

theorem graft_pricingReceipt {m : Pubkey} (h : .pricingReceipt m ∈ F) :
    (s.graft F t).pricingReceipt m = s.pricingReceipt m := if_pos h

theorem graft_now : (s.graft F t).now = s.now := rfl

theorem graft_account (hfits : Fits F s t) (ha : a ∈ F) : (s.graft F t).SameAccount s a := by
  cases a with
  | treasury =>
    show (ite _ _ _ : Option ProtocolConfig).isSome = _
    split
    · rfl
    · rename_i hnot
      exact ((hfits ha).resolve_left hnot).symm
  | _ => exact if_pos ha

/-- The same grafted onto two chains that have the same there. -/
theorem graft_same {u : Chain} (h : s.Same t (some a)) (ha : a ∈ F) :
    (u.graft F s).Same (u.graft F t) (some a) := by
  refine ⟨(if_pos ha).trans (if_pos ha).symm, ?_⟩
  cases a with
  | treasury =>
    show (ite _ _ _ : Option ProtocolConfig).isSome = (ite _ _ _ : Option ProtocolConfig).isSome
    split
    · rfl
    · exact h.2
  | _ => exact (if_pos ha).trans (if_pos ha).symm

/-- The chain with an empty log. -/
def silent (s : Chain) : Chain := { s with events := [] }

/-- A chain with the accounts of another, where they are the same. -/
theorem graft_of_agree (hnow : s.now = t.now) (h : ∀ a ∈ F, s.Same t (some a)) :
    s.silent.graft F t = t := by
  have hpick {β : Type} (a : Address) {x y : β} (hxy : a ∈ F → x = y) :
      (if a ∈ F then x else y) = y := by
    split
    · exact hxy ‹_›
    · rfl
  refine eq_of_same (fun p => ?_) (List.append_nil _)
  cases p with
  | none => exact hnow
  | some a =>
    refine ⟨hpick a fun ha => (h a ha).1, ?_⟩
    cases a with
    | treasury =>
      exact congrArg Option.isSome (hpick .protocolConfig fun ha => (h _ ha).2)
    | _ => exact hpick _ fun ha => (h _ ha).2

theorem owner_of_same {s t : Chain} (h : s.SameAccount t a) : s.owner a = t.owner a := by
  cases a <;> simp_all [SameAccount, owner]

theorem data_of_same {s t : Chain} (h : s.SameAccount t a) : s.data a = t.data a := by
  cases a <;> simp_all [SameAccount, data]

theorem graft_owner (hfits : Fits F s t) (ha : a ∈ F) : (s.graft F t).owner a = s.owner a :=
  owner_of_same (graft_account hfits ha)

theorem graft_data (hfits : Fits F s t) (ha : a ∈ F) : (s.graft F t).data a = s.data a :=
  data_of_same (graft_account hfits ha)

/-! ## Reading and writing -/

theorem graft_loadMarket {m : Pubkey} (h : .market m ∈ F) :
    (s.graft F t).loadMarket m = s.loadMarket m := by rw [loadMarket, graft_market h, loadMarket]

theorem graft_loadPosition {m o : Pubkey} (h : .position m o ∈ F) :
    (s.graft F t).loadPosition m o = s.loadPosition m o := by
  rw [loadPosition, graft_position h, loadPosition]

theorem graft_loadGrant {o k : Pubkey} (h : .sessionGrant o k ∈ F) :
    (s.graft F t).loadGrant o k = s.loadGrant o k :=
  congrArg (getOr _) (if_pos h)

theorem graft_loadProtocolConfig {rt : Runtime} (h : .protocolConfig ∈ F) :
    (s.graft F t).loadProtocolConfig rt = s.loadProtocolConfig rt := by
  rw [loadProtocolConfig, graft_protocolConfig h, loadProtocolConfig]

theorem emit_graft (e : Event) : (s.graft F t).emit e = (s.emit e).graft F t :=
  congrArg (fun es => { s.graft F t with events := es }) (List.append_assoc _ _ _)

theorem setMarket_graft {m : Pubkey} (h : .market m ∈ F) (mk : Market) :
    (s.graft F t).setMarket m mk = (s.setMarket m mk).graft F t :=
  congrArg (fun f => { s.graft F t with market := f })
    (update_ite (p := fun m => .market m ∈ F) h _)

theorem setPosition_graft {m o : Pubkey} (h : .position m o ∈ F) (p : Position) :
    (s.graft F t).setPosition m o p = (s.setPosition m o p).graft F t :=
  congrArg (fun f => { s.graft F t with position := f })
    (update_ite (p := fun k : Pubkey × Pubkey => .position k.1 k.2 ∈ F) h _)

theorem setGrant_graft {o k : Pubkey} (h : .sessionGrant o k ∈ F) (g : SessionGrant) :
    (s.graft F t).setGrant o k g = (s.setGrant o k g).graft F t :=
  congrArg (fun f => { s.graft F t with sessionGrant := f })
    (update_ite (p := fun k : Pubkey × Pubkey => .sessionGrant k.1 k.2 ∈ F) h _)

theorem setReceipt_graft {rt : Runtime} (h : rt.receipt a ∈ F) (r : Resolution) :
    (s.graft F t).setReceipt rt a r = (s.setReceipt rt a r).graft F t := by
  cases a with
  | market m =>
    exact congrArg (fun f => { s.graft F t with resolution := f })
      (update_ite (p := fun m => Address.resolution m ∈ F) h _)
  | _ =>
    exact congrArg (fun f => { s.graft F t with strayResolution := f })
      (update_ite (p := fun k => Address.strayResolution k ∈ F) h _)

/-! ## Lamports -/

/-- The balances of `l` at the accounts of `F`. -/
def graftLamports (F : List Address) (l l' : Address → UInt64) (a : Address) : UInt64 :=
  if a ∈ F then l a else l' a

variable {l l' : Address → UInt64} {x : UInt64}

theorem debit_graft {e : ProgramError} (ha : a ∈ F) : debit e (graftLamports F l l') a x =
    (graftLamports F · l') <$> debit e l a x := by
  rw [debit, debit, map_bind, graftLamports, if_pos ha]
  refine bind_congr fun b => ?_
  exact congrArg Except.ok (update_ite (p := (· ∈ F)) ha b)

theorem credit_graft {e : ProgramError} (ha : a ∈ F) : credit e (graftLamports F l l') a x =
    (graftLamports F · l') <$> credit e l a x := by
  rw [credit, credit, map_bind, graftLamports, if_pos ha]
  refine bind_congr fun b => ?_
  exact congrArg Except.ok (update_ite (p := (· ∈ F)) ha b)

theorem transfer_graft {e e' : ProgramError} {b : Address} (ha : a ∈ F) (hb : b ∈ F) :
    transfer e e' (graftLamports F l l') a b x =
      (graftLamports F · l') <$> transfer e e' l a b x := by
  rw [transfer, transfer, debit_graft ha, map_bind, bind_map_left]
  exact bind_congr fun l => credit_graft hb

theorem systemTransfer_graft {source : Pubkey} (hsource : .external source ∈ F) (ha : a ∈ F) :
    (s.graft F t).systemTransfer source a x = (graft F · t) <$> s.systemTransfer source a x := by
  have hexternal : (s.graft F t).external source = s.external source := if_pos hsource
  have hlamports : (s.graft F t).lamports = graftLamports F s.lamports t.lamports := rfl
  simp only [systemTransfer, hexternal, hlamports, transfer_graft hsource ha, map_bind,
    bind_map_left]
  rfl

theorem subLamports_graft {site : Site} (ha : a ∈ F) :
    (s.graft F t).subLamports site a x = (graft F · t) <$> s.subLamports site a x := by
  have hlamports : (s.graft F t).lamports = graftLamports F s.lamports t.lamports := rfl
  simp only [subLamports, hlamports, debit_graft ha, map_bind, bind_map_left]
  rfl

theorem addLamports_graft {site : Site} (ha : a ∈ F) :
    (s.graft F t).addLamports site a x = (graft F · t) <$> s.addLamports site a x := by
  have hlamports : (s.graft F t).lamports = graftLamports F s.lamports t.lamports := rfl
  simp only [addLamports, hlamports, credit_graft ha, map_bind, bind_map_left]
  rfl

theorem sweep_graft {site : Site} {target : Pubkey} (ha : a ∈ F) (htarget : .external target ∈ F) :
    (s.graft F t).sweep site a target = (graft F · t) <$> s.sweep site a target := by
  rw [sweep, sweep, graft_lamports ha, addLamports_graft htarget, map_bind, bind_map_left]
  refine bind_congr fun u => ?_
  exact congrArg (fun l => Except.ok { u.graft F t with lamports := l })
    (update_ite (p := (· ∈ F)) ha 0)

/-! ## Creating accounts -/

theorem initAccount_graft {rt : Runtime} {payer : Pubkey} {space : ℕ} (hfits : Fits F s t)
    (hpayer : .external payer ∈ F) (ha : a ∈ F) : (s.graft F t).initAccount rt payer a space =
      (graft F · t) <$> s.initAccount rt payer a space := by
  have hrent : (s.graft F t).rentDue rt a space = s.rentDue rt a space := by
    rw [rentDue, graft_lamports ha, rentDue]
  rw [initAccount, initAccount, graft_owner hfits ha, hrent, systemTransfer_graft hpayer ha,
    map_bind]

theorem initPosition_graft {rt : Runtime} {payer m o : Pubkey} (hfits : Fits F s t)
    (hpayer : .external payer ∈ F) (h : .position m o ∈ F) :
    (s.graft F t).initPosition rt payer m o =
      (fun r => (r.1, r.2.graft F t)) <$> s.initPosition rt payer m o := by
  rw [initPosition, initPosition, graft_position h]
  cases s.position (m, o) with
  | some p => rfl
  | none =>
    dsimp only
    rw [initAccount_graft hfits hpayer h, map_bind, bind_map_left]
    rfl

end Graft

/-! ## What is kept -/

/-- All accounts but those of `W` are the same, and so is the clock. -/
structure Keeps (W : List Address) (s t : Chain) : Prop where
  now : s.now = t.now
  account : ∀ a, a ∉ W → s.Same t (some a)

namespace Keeps
variable {W : List Address} {s t u : Chain} {a : Address} {x : UInt64}

theorem refl (W : List Address) (s : Chain) : Keeps W s s := ⟨rfl, fun a _ => ⟨rfl, .refl s a⟩⟩

theorem trans (h : Keeps W s t) (h' : Keeps W t u) : Keeps W s u where
  now := h.now.trans h'.now
  account a ha := ⟨(h.account a ha).1.trans (h'.account a ha).1,
    (h.account a ha).2.trans (h'.account a ha).2⟩

theorem emit (h : Keeps W s t) (e : Event) : Keeps W s (t.emit e) :=
  h.trans ⟨rfl, fun a _ => ⟨rfl, by cases a <;> rfl⟩⟩

theorem lamports (h : Keeps W s t) {l : Address → UInt64} (hl : ∀ a, a ∉ W → t.lamports a = l a) :
    Keeps W s { t with lamports := l } :=
  h.trans ⟨rfl, fun a ha => ⟨hl a ha, by cases a <;> rfl⟩⟩

theorem update_ne {κ β : Type} [DecidableEq κ] {f : κ → β} {k k' : κ} {v : β} {p : κ → Address}
    (hk : p k ∈ W) (hk' : p k' ∉ W) : f k' = Function.update f k v k' := by
  rw [Function.update_of_ne]
  rintro rfl
  exact hk' hk

theorem market (h : Keeps W s t) {m : Pubkey} (hm : .market m ∈ W) (v : Option Market) :
    Keeps W s { t with market := Function.update t.market m v } := by
  refine h.trans ⟨rfl, fun a ha => ⟨rfl, ?_⟩⟩
  cases a with
  | market m' => exact update_ne hm ha
  | _ => rfl

theorem setMarket (h : Keeps W s t) {m : Pubkey} (hm : .market m ∈ W) (mk : Market) :
    Keeps W s (t.setMarket m mk) := h.market hm _

theorem setPosition (h : Keeps W s t) {m o : Pubkey} (hp : .position m o ∈ W) (p : Position) :
    Keeps W s (t.setPosition m o p) := by
  refine h.trans ⟨rfl, fun a ha => ⟨rfl, ?_⟩⟩
  cases a with
  | position m' o' => exact update_ne (p := fun k : Pubkey × Pubkey => .position k.1 k.2) hp ha
  | _ => rfl

theorem sessionGrant (h : Keeps W s t) {o k : Pubkey} (hg : .sessionGrant o k ∈ W)
    (v : Option SessionGrant) :
    Keeps W s { t with sessionGrant := Function.update t.sessionGrant (o, k) v } := by
  refine h.trans ⟨rfl, fun a ha => ⟨rfl, ?_⟩⟩
  cases a with
  | sessionGrant o' k' =>
    exact update_ne (p := fun k : Pubkey × Pubkey => .sessionGrant k.1 k.2) hg ha
  | _ => rfl

theorem setGrant (h : Keeps W s t) {o k : Pubkey} (hg : .sessionGrant o k ∈ W) (g : SessionGrant) :
    Keeps W s (t.setGrant o k g) := h.sessionGrant hg _

theorem pricingReceipt (h : Keeps W s t) {m : Pubkey} (hm : .pricingReceipt m ∈ W)
    (v : Option PricingReceipt) :
    Keeps W s { t with pricingReceipt := Function.update t.pricingReceipt m v } := by
  refine h.trans ⟨rfl, fun a ha => ⟨rfl, ?_⟩⟩
  cases a with
  | pricingReceipt m' => exact update_ne hm ha
  | _ => rfl

theorem resolution (h : Keeps W s t) {m : Pubkey} (hm : .resolution m ∈ W) (v : Option Resolution) :
    Keeps W s { t with resolution := Function.update t.resolution m v } := by
  refine h.trans ⟨rfl, fun a ha => ⟨rfl, ?_⟩⟩
  cases a with
  | resolution m' => exact update_ne hm ha
  | _ => rfl

theorem strayResolution (h : Keeps W s t) {k : Pubkey} (hk : .strayResolution k ∈ W)
    (v : Option Resolution) :
    Keeps W s { t with strayResolution := Function.update t.strayResolution k v } := by
  refine h.trans ⟨rfl, fun a ha => ⟨rfl, ?_⟩⟩
  cases a with
  | strayResolution k' => exact update_ne hk ha
  | _ => rfl

theorem setReceipt (h : Keeps W s t) {rt : Runtime} (ha : rt.receipt a ∈ W) (r : Resolution) :
    Keeps W s (t.setReceipt rt a r) := by
  cases a with
  | market m => exact h.resolution ha _
  | _ => exact h.strayResolution ha _

theorem config (h : Keeps W s t) {k : Pubkey} (hk : .config k ∈ W) (v : Option Config) :
    Keeps W s { t with config := Function.update t.config k v } := by
  refine h.trans ⟨rfl, fun a ha => ⟨rfl, ?_⟩⟩
  cases a with
  | config k' => exact update_ne hk ha
  | _ => rfl

theorem agentAuthority (h : Keeps W s t) (ha : .agentAuthority ∈ W) (v : Option AgentAuthority) :
    Keeps W s { t with agentAuthority := v } := by
  refine h.trans ⟨rfl, fun a ha' => ⟨rfl, ?_⟩⟩
  cases a with
  | agentAuthority => exact absurd ha ha'
  | _ => rfl

/-- With the protocol the treasury comes to be. -/
theorem protocolConfig (h : Keeps W s t) (hc : .protocolConfig ∈ W) (ht : .treasury ∈ W)
    (v : Option ProtocolConfig) : Keeps W s { t with protocolConfig := v } := by
  refine h.trans ⟨rfl, fun a ha => ⟨rfl, ?_⟩⟩
  cases a with
  | protocolConfig => exact absurd hc ha
  | treasury => exact absurd ht ha
  | _ => rfl

theorem protocol (h : Keeps W s t) (hc : .protocolConfig ∈ W) (ha : .agentAuthority ∈ W)
    (ht : .treasury ∈ W) (v : Option ProtocolConfig) (v' : Option AgentAuthority) :
    Keeps W s { t with protocolConfig := v, agentAuthority := v' } :=
  (h.protocolConfig hc ht v).agentAuthority ha v'

theorem ne_of_mem {b : Address} (ha : a ∉ W) (hb : b ∈ W) : a ≠ b := by
  rintro rfl
  exact ha hb

theorem systemTransfer (h : Keeps W s t) {source : Pubkey}
    (ht : t.systemTransfer source a x = .ok u) (hsource : .external source ∈ W) (ha : a ∈ W) :
    Keeps W s u := by
  obtain ⟨l, -, hl, rfl⟩ := Chain.systemTransfer_ok ht
  exact h.lamports fun b hb => (hl.other (ne_of_mem hb hsource) (ne_of_mem hb ha)).symm

theorem initAccount (h : Keeps W s t) {rt : Runtime} {payer : Pubkey} {space : ℕ}
    (ht : t.initAccount rt payer a space = .ok u) (hpayer : .external payer ∈ W) (ha : a ∈ W) :
    Keeps W s u := by
  obtain ⟨l, -, hl, rfl⟩ := Chain.initAccount_ok ht
  exact h.lamports fun b hb => (hl.other (ne_of_mem hb hpayer) (ne_of_mem hb ha)).symm

theorem initPosition (h : Keeps W s t) {rt : Runtime} {payer m o : Pubkey} {p : Position}
    (ht : t.initPosition rt payer m o = .ok (p, u)) (hpayer : .external payer ∈ W)
    (hp : .position m o ∈ W) : Keeps W s u := by
  obtain ⟨_, l, -, hl, rfl⟩ := Chain.initPosition_ok ht
  exact h.lamports fun b hb => (hl.other (ne_of_mem hb hpayer) (ne_of_mem hb hp)).symm

theorem subLamports (h : Keeps W s t) {site : Site} (ht : t.subLamports site a x = .ok u)
    (ha : a ∈ W) : Keeps W s u := by
  obtain ⟨l, hl, rfl⟩ := Chain.subLamports_ok ht
  exact h.lamports fun b hb => (hl.other b (ne_of_mem hb ha)).symm

theorem addLamports (h : Keeps W s t) {site : Site} (ht : t.addLamports site a x = .ok u)
    (ha : a ∈ W) : Keeps W s u := by
  obtain ⟨l, hl, rfl⟩ := Chain.addLamports_ok ht
  exact h.lamports fun b hb => (hl.other b (ne_of_mem hb ha)).symm

theorem sweep (h : Keeps W s t) {site : Site} {target : Pubkey} (ht : t.sweep site a target = .ok u)
    (ha : a ∈ W) (htarget : .external target ∈ W) : Keeps W s u := by
  obtain ⟨l, hl, rfl⟩ := Chain.sweep_ok ht
  refine h.lamports fun b hb => ?_
  rw [Function.update_of_ne (ne_of_mem hb ha), hl.other b (ne_of_mem hb htarget)]

end Keeps

end Chain
end Stoppage

import Stoppage.Session.Limits

/-! # Accounts in their allocation

Every account is created with the space its type asks for, and an instruction fails at its end when
the account does not take what the handler has written. The space of a pricing receipt leaves out
the 32 bytes of the snapshot hash, so a model version of more than 32 bytes, which the handler
admits up to 64, is refused there. Everything else fits.
-/

namespace Stoppage
open Fallible TransitionSystem MarketProgram
set_option autoImplicit false

/-! ## Records -/

/-- What the market and the settlement program write into an account. -/
inductive Record
  | market (mk : Market)
  | position (p : Position)
  | resolution (r : Resolution)
  | sessionGrant (g : SessionGrant)
  | pricingReceipt (r : PricingReceipt)

namespace Record

def data : Record → Bytes
  | market mk => mk.data
  | position p => p.data
  | resolution r => r.data
  | sessionGrant g => g.data
  | pricingReceipt r => r.data

def space : Record → ℕ
  | market _ => Market.space
  | position _ => Position.space
  | resolution _ => Resolution.space
  | sessionGrant _ => SessionGrant.space
  | pricingReceipt _ => PricingReceipt.space

def Fits (r : Record) : Prop := r.data.length ≤ r.space

/-- The lengths that the handlers check. -/
def Admitted : Record → Prop
  | sessionGrant g => g.allowedPrograms.length ≤ maxPrograms
  | pricingReceipt r => r.modelVersion.utf8ByteSize ≤ maxModelVersionLen
  | _ => True

/-- A model version, if there is one, of at most 32 bytes. -/
def Brief : Record → Prop
  | pricingReceipt r => r.modelVersion.utf8ByteSize ≤ 32
  | _ => True

theorem fits_iff {r : Record} (h : r.Admitted) : r.Fits ↔ r.Brief := by
  cases r with
  | market mk => exact iff_of_true (Market.length_data mk).le trivial
  | position p => exact iff_of_true (Position.length_data p).le trivial
  | resolution r => exact iff_of_true r.length_data.le trivial
  | sessionGrant g =>
    have hlength := g.length_data
    have hadmitted : g.allowedPrograms.length ≤ maxPrograms := h
    refine iff_of_true ?_ trivial
    show g.data.length ≤ SessionGrant.space
    omega
  | pricingReceipt r =>
    have hlength := r.length_data
    have hmax : maxModelVersionLen = 64 := rfl
    show r.data.length ≤ PricingReceipt.space ↔ r.modelVersion.utf8ByteSize ≤ 32
    omega

end Record

def Chain.Stores (s : Chain) : Record → Prop
  | .market v => ∃ m, s.market m = some v
  | .position p => ∃ key, s.position key = some p
  | .resolution r => (∃ m, s.resolution m = some r) ∨ ∃ k, s.strayResolution k = some r
  | .sessionGrant g => ∃ key, s.sessionGrant key = some g
  | .pricingReceipt r => ∃ m, s.pricingReceipt m = some r

/-! ## Instructions before their end -/

/-- An instruction up to the end of its handler, with the accounts as it leaves them. -/
def permit (rt : Runtime) (ctx : TxContext) : Instruction → Chain → Except ProgramError Chain
  | .attestPricing signer m hash version fairValue bid ask signature ts => fun s => do
    let (r, s) ← attestPricingHandler rt signer m hash version fairValue bid ask signature ts s
    pure { s with pricingReceipt := Function.update s.pricingReceipt m (some r) }
  | ix => exec rt ctx ix

/-- A model version, if the instruction carries one, of at most 32 bytes. -/
def Instruction.Brief : Instruction → Prop
  | .attestPricing _ _ _ version _ _ _ _ _ => version.utf8ByteSize ≤ 32
  | _ => True

theorem of_update {κ α : Type} [DecidableEq κ] {f : κ → α} {k key : κ} {x y : α}
    (h : Function.update f k x key = y) : x = y ∨ f key = y := by
  by_cases hkey : key = k
  · subst hkey
    rw [Function.update_self] at h
    exact .inl h
  · rw [Function.update_of_ne hkey] at h
    exact .inr h

section Steps
variable {rt : Runtime} {ctx : TxContext} {ix : Instruction} {s t : Chain}

/-- The end of an instruction refuses a long model version and nothing else. -/
theorem exec_of_permit (h : permit rt ctx ix s = .ok t) :
    (ix.Brief → exec rt ctx ix s = .ok t) ∧
      (¬ ix.Brief → exec rt ctx ix s = .error (.anchor .accountDidNotSerialize)) := by
  cases ix with
  | attestPricing signer m hash version fairValue bid ask signature ts =>
    simp only [permit, bind_eq_ok, pure_eq_ok] at h
    obtain ⟨⟨r, u⟩, hhandler, rfl⟩ := h
    have hexec : exec rt ctx (.attestPricing signer m hash version fairValue bid ask signature ts)
        s = exitPricing m r u := by
      rw [exec, attestPricing, hhandler]
      rfl
    obtain ⟨l, e, rfl, hversion, -, -⟩ := attestPricingHandler_ok hhandler
    have hfits := Record.fits_iff (r := .pricingReceipt (newReceipt rt m hash version fairValue bid
      ask signature ts)) hversion
    rw [hexec, exitPricing]
    constructor
    · intro hbrief
      have hle : (newReceipt rt m hash version fairValue bid ask signature ts).data.length ≤
          PricingReceipt.space := hfits.mpr hbrief
      rw [require_of hle]
      rfl
    · intro hlong
      exact bind_eq_error.mpr (.inl (require_eq_error.mpr ⟨fun hle => hlong (hfits.mp hle), rfl⟩))
  | _ => exact ⟨fun _ => h, fun hlong => absurd trivial hlong⟩

theorem permit_of_exec (h : exec rt ctx ix s = .ok t) : permit rt ctx ix s = .ok t := by
  cases ix with
  | attestPricing =>
    simp only [exec, attestPricing, exitPricing, bind_eq_ok, pure_eq_ok] at h
    obtain ⟨⟨r, u⟩, hhandler, -, -, rfl⟩ := h
    simp only [permit, hhandler]
    rfl
  | _ => exact h

theorem exec_of_receipt (h : permit rt ctx ix s = .ok t) (hix : ix.receipt = none) :
    exec rt ctx ix s = .ok t := by
  cases ix with
  | attestPricing => cases hix
  | _ => exact h

/-- A grant that is there after an instruction was there before, or its list has been checked. -/
theorem permit_grant (h : permit rt ctx ix s = .ok t) {key : Pubkey × Pubkey} {g : SessionGrant}
    (hg : t.sessionGrant key = some g) :
    (∃ g', s.sessionGrant key = some g' ∧ g'.allowedPrograms = g.allowedPrograms) ∨
      g.allowedPrograms.length ≤ maxPrograms := by
  have hexec := exec_of_receipt h
  cases ix with
  | attestPricing =>
    simp only [permit, bind_eq_ok, pure_eq_ok] at h
    obtain ⟨⟨r, u⟩, hhandler, rfl⟩ := h
    obtain ⟨_, _, -, -, -, rfl⟩ := attestPricingHandler_ok hhandler
    exact .inl ⟨g, hg, rfl⟩
  | delegateSessionKey owner session programs =>
    obtain ⟨_, _, -, hallowed, rfl⟩ := delegateSessionKey_ok h
    obtain hnew | hold := of_update hg
    · cases hnew
      exact .inr hallowed
    · exact .inl ⟨g, hold, rfl⟩
  | revokeSessionKey owner session =>
    obtain ⟨_, _, rfl⟩ := revokeSessionKey_ok h
    obtain hnew | hold := of_update hg
    · cases hnew
    · exact .inl ⟨g, hold, rfl⟩
  | joinViaSessionKey k owner =>
    obtain ⟨g₀, g', _, _, _, _, _, hg₀, hspends, -, rfl⟩ := joinViaSessionKey_ok h
    rcases eq_or_ne key (rt.key owner, k) with rfl | hkey
    · obtain hnew | hold := of_update hg
      · cases hnew
        refine .inl ⟨g₀, hg₀, ?_⟩
        rw [hspends.rest]
      · exact .inl ⟨g, hold, rfl⟩
    · exact .inl ⟨g, (Function.update_of_ne hkey _ _).symm.trans hg, rfl⟩
  | _ =>
    have hsame := (exec_records (hexec rfl)).1 key (by rintro ⟨⟩)
    exact .inl ⟨g, hsame.symm.trans hg, rfl⟩

/-- A receipt that is there after an instruction was there before, or its version is that of the
instruction and has been checked. -/
theorem permit_receipt (h : permit rt ctx ix s = .ok t) {m : Pubkey} {r : PricingReceipt}
    (hr : t.pricingReceipt m = some r) :
    s.pricingReceipt m = some r ∨ r.modelVersion.utf8ByteSize ≤ maxModelVersionLen ∧
      (ix.Brief ↔ r.modelVersion.utf8ByteSize ≤ 32) := by
  have hexec := exec_of_receipt h
  cases ix with
  | attestPricing signer m' =>
    simp only [permit, bind_eq_ok, pure_eq_ok] at h
    obtain ⟨⟨r', u⟩, hhandler, rfl⟩ := h
    obtain ⟨_, _, rfl, hversion, -, rfl⟩ := attestPricingHandler_ok hhandler
    obtain hnew | hold := of_update hr
    · cases hnew
      exact .inr ⟨hversion, Iff.rfl⟩
    · exact .inl hold
  | _ => exact .inl (((exec_records (hexec rfl)).2 m (by rintro ⟨⟩)).symm.trans hr)

/-- What an instruction leaves in the accounts is admitted, and brief if the instruction is. -/
theorem permit_stores (hs : ∀ r, s.Stores r → r.Admitted ∧ r.Brief)
    (h : permit rt ctx ix s = .ok t) {r : Record} (hr : t.Stores r) :
    r.Admitted ∧ (ix.Brief → r.Brief) := by
  cases r with
  | sessionGrant g =>
    obtain ⟨key, hg⟩ := hr
    refine ⟨?_, fun _ => trivial⟩
    obtain ⟨g', hg', hsame⟩ | hallowed := permit_grant h hg
    · have hold : g'.allowedPrograms.length ≤ maxPrograms := (hs (.sessionGrant g') ⟨key, hg'⟩).1
      rwa [hsame] at hold
    · exact hallowed
  | pricingReceipt r =>
    obtain ⟨m, hr⟩ := hr
    obtain hold | ⟨hversion, hbrief⟩ := permit_receipt h hr
    · obtain ⟨hadmitted, hshort⟩ := hs (.pricingReceipt r) ⟨m, hold⟩
      exact ⟨hadmitted, fun _ => hshort⟩
    · exact ⟨hversion, hbrief.mp⟩
  | _ => exact ⟨trivial, fun _ => trivial⟩

/-- An instruction with a long model version leaves a receipt that does not fit. -/
theorem permit_long (h : permit rt ctx ix s = .ok t) (hlong : ¬ ix.Brief) :
    ∃ r, t.Stores r ∧ ¬ r.Fits := by
  cases ix with
  | attestPricing signer m hash version fairValue bid ask signature ts =>
    simp only [permit, bind_eq_ok, pure_eq_ok] at h
    obtain ⟨⟨r, u⟩, hhandler, rfl⟩ := h
    obtain ⟨_, _, rfl, hversion, -, rfl⟩ := attestPricingHandler_ok hhandler
    refine ⟨.pricingReceipt (newReceipt rt m hash version fairValue bid ask signature ts),
      ⟨m, Function.update_self _ _ _⟩, fun hfits => hlong ?_⟩
    have hadmitted : (Record.pricingReceipt (newReceipt rt m hash version fairValue bid ask
        signature ts)).Admitted := hversion
    exact (Record.fits_iff hadmitted).mp hfits
  | _ => exact absurd trivial hlong

end Steps

/-! ## Runs -/

/-- Every account holds a record that is admitted and brief. -/
theorem Reachable.stores {rt : Runtime} {s : Chain} (hs : Reachable rt s) :
    ∀ r, s.Stores r → r.Admitted ∧ r.Brief := by
  refine hs.invariant (I := fun s => ∀ r, s.Stores r → r.Admitted ∧ r.Brief) ?_ ?_
  · intro s hgenesis r hr
    cases r with
    | sessionGrant g =>
      obtain ⟨key, hg⟩ := hr
      rw [hgenesis.sessionGrant] at hg
      cases hg
    | pricingReceipt r =>
      obtain ⟨m, hr⟩ := hr
      rw [hgenesis.pricingReceipt] at hr
      cases hr
    | _ => exact ⟨trivial, trivial⟩
  · intro s a t hstep ih r hr
    obtain ⟨ctx, ix, rfl, hix⟩ | ⟨now, rfl, -, rfl⟩ | ⟨k, x, rfl, rfl⟩ := hstep.cases
    · have hpermit := permit_of_exec hix
      obtain ⟨hadmitted, hbrief⟩ := permit_stores ih hpermit hr
      refine ⟨hadmitted, hbrief ?_⟩
      by_contra hlong
      rw [(exec_of_permit hpermit).2 hlong] at hix
      cases hix
    · exact ih r hr
    · exact ih r hr

/-- **Accounts in their allocation.** Of what the handlers permit, the records that fit are those
without a model version of more than 32 bytes; and of the instructions whose handler succeeds, the
ones that carry such a version are refused at their end, while all others complete and leave every
account within its space. -/
theorem accounts_fit_iff (rt : Runtime) : (∀ r : Record, r.Admitted → (r.Fits ↔ r.Brief)) ∧
    ∀ ctx ix s t, Reachable rt s → permit rt ctx ix s = .ok t →
      (∀ r, t.Stores r → r.Admitted) ∧ ((∀ r, t.Stores r → r.Fits) ↔ ix.Brief) ∧
        (exec rt ctx ix s = .ok t ↔ ix.Brief) ∧
          (¬ ix.Brief → exec rt ctx ix s = .error (.anchor .accountDidNotSerialize)) := by
  refine ⟨fun r hr => Record.fits_iff hr, fun ctx ix s t hs h => ?_⟩
  have hstores := fun r hr => permit_stores (r := r) hs.stores h hr
  obtain ⟨hcompletes, hrefused⟩ := exec_of_permit h
  refine ⟨fun r hr => (hstores r hr).1, ⟨fun hfits => ?_, fun hbrief r hr => ?_⟩,
    ⟨fun hexec => ?_, hcompletes⟩, hrefused⟩
  · by_contra hlong
    obtain ⟨r, hr, hlarge⟩ := permit_long h hlong
    exact hlarge (hfits r hr)
  · obtain ⟨hadmitted, hshort⟩ := hstores r hr
    exact (Record.fits_iff hadmitted).mpr (hshort hbrief)
  · by_contra hlong
    rw [hrefused hlong] at hexec
    cases hexec

namespace Sample

/-- The agent prices the market with the named version of its model. -/
def attest (version : String) : Instruction :=
  .attestPricing alice market (List.Vector.replicate 32 7) version 540000 520000 560000
    (List.Vector.replicate 64 1) 1700000100

theorem exists_permit (version : String)
    (h : Action.runsTo runtime [setUp, create 1700001000 echo] genesis (fun s =>
      (permit runtime ⟨[attest version], 0⟩ (attest version) s).isOk = true) = true) :
    ∃ s t, Reachable runtime s ∧
      permit runtime ⟨[attest version], 0⟩ (attest version) s = .ok t := by
  obtain ⟨s, hsteps, hok⟩ := steps_of_runsTo h
  obtain ⟨t, ht⟩ := exists_of_isOk hok
  exact ⟨s, t, ⟨_, _, genesis_ok, hsteps⟩, ht⟩

end Sample

/-- The version of the agent's own model fits. -/
theorem accounts_fit_iff_sample : ∃ s t, Reachable Sample.runtime s ∧
    exec Sample.runtime ⟨[Sample.attest "stoppage-quant-v1"], 0⟩ (Sample.attest "stoppage-quant-v1") s =
      .ok t ∧ ∀ r, t.Stores r → r.Fits := by
  obtain ⟨s, t, hs, ht⟩ := Sample.exists_permit "stoppage-quant-v1" (by decide +kernel)
  obtain ⟨-, hfits, hexec, -⟩ := (accounts_fit_iff Sample.runtime).2 _ _ _ _ hs ht
  have hbrief : (Sample.attest "stoppage-quant-v1").Brief := by
    show "stoppage-quant-v1".utf8ByteSize ≤ 32
    decide
  exact ⟨s, t, hs, hexec.mpr hbrief, hfits.mpr hbrief⟩

/-- A version of 33 bytes passes every check of the handler and does not fit. -/
theorem long_version_refused : ¬ ∀ rt ctx ix s t, Reachable rt s → permit rt ctx ix s = .ok t →
    ∀ r, t.Stores r → r.Fits := by
  intro hall
  obtain ⟨s, t, hs, ht⟩ := Sample.exists_permit
    "stoppage-quant-v1+calibrated-1807" (by decide +kernel)
  have hlong : ¬ (Sample.attest "stoppage-quant-v1+calibrated-1807").Brief := by
    show ¬ "stoppage-quant-v1+calibrated-1807".utf8ByteSize ≤ 32
    decide
  obtain ⟨r, hr, hlarge⟩ := permit_long ht hlong
  exact hlarge (hall _ _ _ s t hs ht r hr)

end Stoppage

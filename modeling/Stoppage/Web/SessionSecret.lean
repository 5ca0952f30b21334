import Stoppage.Web.SessionKey

/-! # The secret of a session key

A key that is lost while its grant lives leaves the funds of the session out of reach. The restore
check takes a request that fails for a grant that is missing, and it starts as soon as a keypair is
there, before anything was delegated to it. `secret_kept` says what must not happen so that the
secret stays where it is.
-/

namespace Stoppage.SessionKey
open TransitionSystem
set_option autoImplicit false

/-! ## Keys with a grant -/

namespace Page
variable (rt : Runtime) (wallets : List Pubkey) (s : Page) (k : Pubkey)

/-- A wallet of the user has a grant for the key, and it has not expired. -/
def Live : Prop :=
  ∃ owner ∈ wallets, (expiry s.chain (owner, k)).any (fun e => s.chain.now < e) = true

def InFlight : Prop := ∃ x ∈ s.sent, (delegated rt x.2).map Prod.snd = some k

/-- A call of `delegate` is under way. -/
def Delegating : Prop := ∃ x ∈ s.calls, x.2.delegates = true

/-- A call of `delegate` with this keypair is under way. -/
def DelegatingTo : Prop := ∃ x ∈ s.calls, x.2.key = some k

instance : Decidable (s.Live wallets k) := inferInstanceAs (Decidable (∃ owner ∈ wallets, _))

instance : Decidable (s.InFlight rt k) := inferInstanceAs (Decidable (∃ x ∈ s.sent, _))

instance : Decidable s.Delegating := inferInstanceAs (Decidable (∃ x ∈ s.calls, _))

instance : Decidable (s.DelegatingTo k) := inferInstanceAs (Decidable (∃ x ∈ s.calls, _))

/-- The secret of every generated key with a grant that has not expired is in the storage, unless
the session was cleared since. -/
def SecretKept : Prop :=
  ∀ k ∈ s.generated, k ∉ s.cleared → s.Live wallets k →
    ∃ st, s.storage = some st ∧ st.secret = k

end Page

/-- What must not happen:

* The check ends without a grant although the key in the storage has one or is being delegated to.
* `delegate` is called before the last change of the state was rendered, or while the hook has no
  keypair and another call of it is under way.
* The page is reloaded when the stored session seems to have expired, but the grant has not.
* The session is cleared, or a revocation confirmed, during a call of `delegate`. -/
def Keeps (rt : Runtime) (wallets : List Pubkey) (s : Page) : Act → Prop
  | .finishCheck => s.check.bind Check.answer = some none → ∀ st ∈ s.storage,
      ¬ s.DelegatingTo st.secret ∧ ¬ s.InFlight rt st.secret ∧ ¬ s.Live wallets st.secret
  | .delegate _ _ | .resume _ =>
    s.rendered.1.keypair = s.state.keypair ∧ (s.state.keypair = none → ¬ s.Delegating)
  | .reload => ∀ st ∈ s.storage, ¬ st.valid s.now →
      ¬ s.InFlight rt st.secret ∧ ¬ s.Live wallets st.secret
  | .clearSession => s.state.keypair ≠ none → ¬ s.Delegating
  | .confirm i => (s.callOf i).any (! Call.delegates ·) = true → s.state.keypair ≠ none →
      ¬ s.Delegating
  | _ => True

instance (rt : Runtime) (wallets : List Pubkey) (s : Page) (a : Act) : Decidable (Keeps rt wallets s a) :=
  match a with
  | .finishCheck => inferInstanceAs (Decidable (_ = _ → ∀ st ∈ s.storage, _ ∧ _ ∧ _))
  | .delegate _ _ | .resume _ => inferInstanceAs (Decidable (_ ∧ (_ → ¬ s.Delegating)))
  | .reload => inferInstanceAs (Decidable (∀ st ∈ s.storage, _ → _ ∧ _))
  | .clearSession => inferInstanceAs (Decidable (_ → ¬ s.Delegating))
  | .confirm _ => inferInstanceAs (Decidable (_ → _ → ¬ s.Delegating))
  | .clock _ | .connect _ | .render _ | .read _ | .balance _ _ | .revoke _ | .send _ | .land _
  | .lose _ | .fail _ | .pause | .chain _ => inferInstanceAs (Decidable True)

/-! ## The invariant -/

/-- The hook and the storage hold the same key, every call of `delegate` has it, and it is the only
one that a grant was or may yet be created for. -/
structure InStep (rt : Runtime) (wallets : List Pubkey) (s : Page) : Prop where
  stored : s.storage.map StoredSession.secret = s.state.keypair
  calls : ∀ x ∈ s.calls, x.2.delegates = true → x.2.key = s.state.keypair
  alone : s.state.keypair = none → ∀ x ∈ s.calls, ∀ y ∈ s.calls, x.2.delegates = true →
    y.2.delegates = true → x.1 = y.1
  held : ∀ k ∈ s.generated, k ∉ s.cleared → s.Live wallets k ∨ s.InFlight rt k →
    s.state.keypair = some k

section Invariant
variable {rt : Runtime} {wallets : List Pubkey} {s t : Page} {i : ℕ}

theorem InStep.secretKept (h : InStep rt wallets s) : s.SecretKept wallets := by
  intro k hk hcleared hlive
  have hkey := h.held k hk hcleared (.inl hlive)
  rw [← h.stored] at hkey
  exact Option.map_eq_some_iff.mp hkey

theorem InStep.start (h : Start s) : InStep rt wallets s := by
  refine ⟨?_, ?_, ?_, ?_⟩
  · rw [h.storage, h.state]
    rfl
  · simp [h.calls]
  · simp [h.calls]
  · simp [h.generated]

/-- Nothing that the invariant speaks of has changed. -/
theorem InStep.congr (h : InStep rt wallets s) (hstored : t.storage.map StoredSession.secret =
      s.storage.map StoredSession.secret) (hkey : t.state.keypair = s.state.keypair)
    (hcalls : ∀ x ∈ t.calls, x ∈ s.calls) (hgenerated : t.generated = s.generated)
    (hcleared : t.cleared = s.cleared)
    (hheld : ∀ k, t.Live wallets k ∨ t.InFlight rt k → s.Live wallets k ∨ s.InFlight rt k) :
    InStep rt wallets t := by
  refine ⟨?_, ?_, ?_, ?_⟩
  · rw [hstored, hkey, h.stored]
  · intro x hx hdelegates
    rw [hkey]
    exact h.calls x (hcalls x hx) hdelegates
  · intro hnone x hx y hy
    exact h.alone (hkey ▸ hnone) x (hcalls x hx) y (hcalls y hy)
  · intro k hk hk' hneeded
    rw [hkey]
    exact h.held k (hgenerated ▸ hk) (hcleared ▸ hk') (hheld k hneeded)

theorem InStep.dropped (h : InStep rt wallets s) (hstorage : t.storage = none)
    (hstate : t.state = emptyState) (hcalls : ∀ x ∈ t.calls, x ∈ s.calls)
    (hgenerated : t.generated = s.generated) (hcleared : t.cleared = s.cleared)
    (hheld : ∀ k, t.Live wallets k ∨ t.InFlight rt k → s.Live wallets k ∨ s.InFlight rt k)
    (hnone : ∀ st ∈ s.storage, (∀ x ∈ t.calls, x.2.key ≠ some st.secret) ∧
      ¬ s.InFlight rt st.secret ∧ ¬ s.Live wallets st.secret) : InStep rt wallets t := by
  cases hkey : s.state.keypair with
  | none =>
    refine h.congr ?_ ?_ hcalls hgenerated hcleared hheld
    · rw [hstorage, h.stored, hkey]
      rfl
    · rw [hstate, hkey]
      rfl
  | some k =>
    have hsecret := h.stored
    rw [hkey] at hsecret
    obtain ⟨st, hst, rfl⟩ := Option.map_eq_some_iff.mp hsecret
    obtain ⟨hcall, hsent, hlive⟩ := hnone st hst
    have hno : ∀ x ∈ t.calls, x.2.delegates ≠ true := by
      intro x hx hdelegates
      exact hcall x hx ((h.calls x (hcalls x hx) hdelegates).trans hkey)
    refine ⟨?_, ?_, ?_, ?_⟩
    · rw [hstorage, hstate]
      rfl
    · intro x hx hdelegates
      exact absurd hdelegates (hno x hx)
    · intro _ x hx _ _ hdelegates
      exact absurd hdelegates (hno x hx)
    · intro k hk hk' hneeded
      have hsame := h.held k (hgenerated ▸ hk) (hcleared ▸ hk') (hheld k hneeded)
      rw [hkey] at hsame
      cases hsame
      exact absurd (hheld _ hneeded) (not_or.mpr ⟨hlive, hsent⟩)

/-! ## Effects -/

theorem Page.mount_spec : (∃ st, s.storage = some st ∧ st.valid s.now ∧
      s.mount = { s with state := st.restored }) ∨
    (∀ st ∈ s.storage, ¬ st.valid s.now) ∧
      s.mount = { s with storage := none, state := emptyState } := by
  cases hst : s.storage with
  | none =>
    refine .inr ⟨nofun, ?_⟩
    rw [Page.mount, hst]
  | some st =>
    by_cases hvalid : st.valid s.now
    · refine .inl ⟨st, rfl, hvalid, ?_⟩
      simp only [Page.mount, hst, if_pos hvalid]
    · refine .inr ⟨?_, ?_⟩
      · rintro _ ⟨⟩
        exact hvalid
      · simp only [Page.mount, hst, if_neg hvalid]

theorem InStep.reload (h : InStep rt wallets s) (hkeeps : Keeps rt wallets s .reload) :
    InStep rt wallets s.reload := by
  let u : Page :=
    { s with wallet := none, rendered := (emptyState, none), check := none, calls := [] }
  obtain ⟨st, hst, -, hmount⟩ | ⟨hinvalid, hmount⟩ := Page.mount_spec (s := u)
  · rw [Page.reload, hmount]
    have hsecret : s.storage.map StoredSession.secret = some st.secret := congrArg _ hst
    exact h.congr rfl (hsecret.symm.trans h.stored)
      (fun x hx => absurd hx List.not_mem_nil) rfl rfl fun _ => id
  · rw [Page.reload, hmount]
    refine h.dropped rfl rfl (fun x hx => absurd hx List.not_mem_nil) rfl rfl (fun _ => id) ?_
    intro st hst
    exact ⟨fun x hx => absurd hx List.not_mem_nil, hkeeps st hst (hinvalid st hst)⟩

theorem InStep.finishCheck (h : InStep rt wallets s) {grant : Option ℤ}
    (hanswer : s.check.bind Check.answer = some grant) (hkeeps : Keeps rt wallets s .finishCheck) :
    InStep rt wallets (s.finishCheck grant) := by
  cases grant with
  | some expiresAtSec =>
    rw [Page.finishCheck]
    split
    · exact h.congr rfl rfl (fun _ => id) rfl rfl fun _ => id
    · exact h.congr rfl rfl (fun _ => id) rfl rfl fun _ => id
  | none =>
    refine h.dropped rfl rfl (fun _ => id) rfl rfl (fun _ => id) ?_
    intro st hst
    obtain ⟨hcall, hneeded⟩ := hkeeps hanswer st hst
    exact ⟨fun x hx hkey => hcall ⟨x, hx, hkey⟩, hneeded⟩

/-! ## Callbacks -/

theorem InStep.clearSession (h : InStep rt wallets s)
    (hkeeps : s.state.keypair ≠ none → ¬ s.Delegating) : InStep rt wallets s.clearSession := by
  refine ⟨rfl, ?_, ?_, ?_⟩
  · intro x hx hdelegates
    by_cases hkey : s.state.keypair = none
    · exact (h.calls x hx hdelegates).trans hkey
    · exact absurd ⟨x, hx, hdelegates⟩ (hkeeps hkey)
  · intro _ x hx y hy hdelegates
    by_cases hkey : s.state.keypair = none
    · exact h.alone hkey x hx y hy hdelegates
    · exact absurd ⟨x, hx, hdelegates⟩ (hkeeps hkey)
  · intro k hk hcleared
    exact absurd hk hcleared

theorem InStep.pause (h : InStep rt wallets s) : InStep rt wallets s.pause := by
  cases hkey : s.state.keypair with
  | none =>
    simp only [Page.pause, hkey]
    exact h
  | some k =>
    simp only [Page.pause, hkey]
    refine h.congr ?_ hkey.symm (fun _ => id) rfl rfl fun _ => id
    rw [h.stored, hkey]
    rfl

theorem InStep.setCall (h : InStep rt wallets s) {c : Call}
    (hkey : c.delegates = true → c.key = s.state.keypair)
    (halone : c.delegates = true → s.state.keypair = none →
      ∀ x ∈ s.calls, x.2.delegates = true → x.1 = i) : InStep rt wallets (s.setCall i c) := by
  refine ⟨h.stored, ?_, ?_, h.held⟩
  · intro x hx hdelegates
    rcases Page.mem_setCall.mp hx with rfl | ⟨hx, -⟩
    · exact hkey hdelegates
    · exact h.calls x hx hdelegates
  · intro hnone x hx y hy hdx hdy
    rcases Page.mem_setCall.mp hx with rfl | ⟨hx, -⟩ <;>
      rcases Page.mem_setCall.mp hy with rfl | ⟨hy, -⟩
    · rfl
    · exact (halone hdx hnone y hy hdy).symm
    · exact halone hdy hnone x hx hdx
    · exact h.alone hnone x hx y hy hdx hdy

theorem InStep.withoutCall (h : InStep rt wallets s) : InStep rt wallets (s.withoutCall i) :=
  h.congr rfl rfl (fun _ hx => (Page.mem_withoutCall.mp hx).1) rfl rfl fun _ => id

theorem InStep.delegate (h : InStep rt wallets s) {opts : DelegateOptions}
    (ht : s.delegate i opts = some t) (hkeeps : Keeps rt wallets s (.delegate i opts)) :
    InStep rt wallets t := by
  rw [Page.delegate] at ht
  split at ht
  · cases ht
  · obtain ⟨-, ht⟩ := Option.ite_none_right_eq_some.mp ht
    cases ht
    refine h.setCall (fun _ => hkeeps.1) ?_
    intro _ hnone x hx hdelegates
    exact absurd ⟨x, hx, hdelegates⟩ (hkeeps.2 hnone)

/-- A call goes on with the keypair it has, or with a new one if the hook has none. -/
theorem InStep.balance (h : InStep rt wallets s) {k : Pubkey} (ht : s.balance i k = some t) :
    InStep rt wallets t := by
  rw [Page.balance] at ht
  split at ht
  · rename_i owner keypair createdAt opts hcall
    have hmem := Page.mem_of_callOf hcall
    have hkey : keypair = s.state.keypair := h.calls _ hmem rfl
    split at ht
    · cases ht
      exact h.withoutCall
    · cases hkeypair : keypair with
      | some key =>
        subst hkeypair
        cases ht
        refine h.setCall (fun _ => hkey) ?_
        intro _ hnone
        rw [hnone] at hkey
        cases hkey
      | none =>
        subst hkeypair
        obtain ⟨-, ht⟩ := Option.ite_none_right_eq_some.mp ht
        cases ht
        refine ⟨rfl, ?_, nofun, ?_⟩
        · intro x hx hdelegates
          rcases Page.mem_setCall.mp hx with rfl | ⟨hx, hne⟩
          · rfl
          · exact absurd (h.alone hkey.symm x hx _ hmem hdelegates rfl) hne
        · intro k' hk' hcleared hneeded
          rcases List.mem_cons.mp hk' with rfl | hk'
          · rfl
          · have hheld := h.held k' hk' hcleared hneeded
            rw [← hkey] at hheld
            cases hheld
  · cases ht

theorem InStep.revoke (h : InStep rt wallets s) (ht : s.revoke i = some t) : InStep rt wallets t := by
  rw [Page.revoke] at ht
  split at ht
  · obtain ⟨-, ht⟩ := Option.ite_none_right_eq_some.mp ht
    cases ht
    exact h.setCall nofun nofun
  · cases ht

/-! ## Transactions -/

/-- A transaction that creates a grant, if any, for the key of the hook. -/
theorem InStep.sendTx (h : InStep rt wallets s) {ix : Instruction}
    (hkey : ∀ k, (delegated rt ix).map Prod.snd = some k → s.state.keypair = some k) :
    InStep rt wallets { s with sent := (i, ix) :: s.sent } := by
  refine ⟨h.stored, h.calls, h.alone, ?_⟩
  intro k hk hcleared hneeded
  rcases hneeded with hlive | ⟨x, hx, hto⟩
  · exact h.held k hk hcleared (.inl hlive)
  · rcases List.mem_cons.mp hx with rfl | hx
    · exact hkey k hto
    · exact h.held k hk hcleared (.inr ⟨x, hx, hto⟩)

theorem InStep.send (h : InStep rt wallets s) (ht : s.send i = some t) : InStep rt wallets t := by
  rw [Page.send] at ht
  split at ht
  · rename_i d hcall
    cases ht
    have hkey : some d.key = s.state.keypair := h.calls _ (Page.mem_of_callOf hcall) rfl
    have hset : InStep rt wallets (s.setCall i (.delegate d true)) := by
      refine h.setCall (fun _ => hkey) ?_
      intro _ hnone
      rw [hnone] at hkey
      cases hkey
    refine hset.sendTx fun k hto => ?_
    cases hto
    exact hkey.symm
  · rename_i owner k hcall
    cases ht
    have hset : InStep rt wallets (s.setCall i (.revoke owner k true)) :=
      h.setCall (fun hd => absurd hd Bool.false_ne_true) (fun hd => absurd hd Bool.false_ne_true)
    refine hset.sendTx fun k hto => ?_
    cases hto
  · cases ht

theorem InStep.land (h : InStep rt wallets s) (ht : s.land rt i = some t) : InStep rt wallets t := by
  have hnow := Page.land_now ht
  have hexpiry := Page.land_expiry ht
  obtain ⟨ix, -, rfl⟩ := Option.map_eq_some_iff.mp ht
  refine h.congr rfl rfl (fun _ => id) rfl rfl ?_
  rintro k (⟨owner, howner, hlive⟩ | ⟨x, hx, hto⟩)
  · obtain ⟨ix, hix, hto⟩ | hnone | hsame := hexpiry (owner, k)
    · exact .inr ⟨_, hix, by rw [hto]; rfl⟩
    · rw [hnone] at hlive
      cases hlive
    · rw [hsame, hnow] at hlive
      exact .inl ⟨owner, howner, hlive⟩
  · exact .inr ⟨x, List.mem_of_mem_filter hx, hto⟩

theorem InStep.confirm (h : InStep rt wallets s) (hkeeps : Keeps rt wallets s (.confirm i))
    (ht : s.confirm i = some t) : InStep rt wallets t := by
  obtain ⟨-, ht⟩ := Option.ite_none_right_eq_some.mp ht
  split at ht
  · rename_i d hcall
    cases ht
    have hkey : some d.key = s.state.keypair := h.calls _ (Page.mem_of_callOf hcall) rfl
    have hconfirmed : InStep rt wallets (s.confirmDelegate d) :=
      h.congr (hkey.trans h.stored.symm) rfl (fun _ => id) rfl rfl fun _ => id
    exact hconfirmed.withoutCall
  · rename_i owner k hcall
    cases ht
    refine (h.clearSession (hkeeps ?_)).withoutCall
    rw [hcall]
    rfl
  · cases ht

theorem InStep.chain (h : InStep rt wallets s) {a : Action}
    (ht : s.next rt wallets (.chain a) = some t) : InStep rt wallets t := by
  obtain ⟨chain, rfl, hnow, hexpiry⟩ := Page.next_chain ht
  refine h.congr rfl rfl (fun _ => id) rfl rfl ?_
  rintro k (⟨owner, howner, hlive⟩ | hsent)
  · obtain ⟨e, he, hlt⟩ := (Option.any_eq_true _ _).mp hlive
    rw [hexpiry (owner, k) howner] at he
    have hlt' : s.chain.now < e := Int64.lt_of_le_of_lt hnow (of_decide_eq_true hlt)
    exact .inl ⟨owner, howner, (Option.any_eq_true _ _).mpr ⟨e, he, decide_eq_true hlt'⟩⟩
  · exact .inr hsent

/-! ## Runs -/

theorem InStep.next (h : InStep rt wallets s) {a : Act} (hkeeps : Keeps rt wallets s a)
    (ht : s.next rt wallets a = some t) : InStep rt wallets t := by
  have hsame : ∀ u : Page, u.storage = s.storage → u.state = s.state → u.calls = s.calls →
      u.sent = s.sent → u.chain = s.chain → u.generated = s.generated → u.cleared = s.cleared →
      InStep rt wallets u := by
    intro u hstorage hstate hcalls hsent hchain hgenerated hcleared
    refine h.congr (by rw [hstorage]) (by rw [hstate]) (by rw [hcalls]; exact fun _ => id)
      hgenerated hcleared ?_
    intro k
    rw [Page.Live, Page.InFlight, hchain, hsent]
    exact id
  cases a with
  | clock now =>
    cases ht
    exact hsame _ rfl rfl rfl rfl rfl rfl rfl
  | connect wallet =>
    obtain ⟨-, ht⟩ := Option.ite_none_right_eq_some.mp ht
    cases ht
    exact hsame _ rfl rfl rfl rfl rfl rfl rfl
  | render connection =>
    cases ht
    exact hsame _ rfl rfl rfl rfl rfl rfl rfl
  | reload =>
    cases ht
    exact h.reload hkeeps
  | read ok =>
    obtain ⟨c, -, rfl⟩ := Option.map_eq_some_iff.mp ht
    exact hsame _ rfl rfl rfl rfl rfl rfl rfl
  | finishCheck =>
    obtain ⟨grant, hanswer, rfl⟩ := Option.map_eq_some_iff.mp ht
    exact h.finishCheck hanswer hkeeps
  | delegate i opts => exact h.delegate ht hkeeps
  | resume i => exact h.delegate ht hkeeps
  | balance i k => exact h.balance ht
  | revoke i => exact h.revoke ht
  | send i => exact h.send ht
  | land i => exact h.land ht
  | lose i =>
    cases ht
    refine h.congr rfl rfl (fun _ => id) rfl rfl ?_
    rintro k (hlive | ⟨x, hx, hto⟩)
    · exact .inl hlive
    · exact .inr ⟨x, List.mem_of_mem_filter hx, hto⟩
  | confirm i => exact h.confirm hkeeps ht
  | fail i =>
    cases ht
    exact h.withoutCall
  | pause =>
    cases ht
    exact h.pause
  | clearSession =>
    cases ht
    exact h.clearSession hkeeps
  | chain a => exact h.chain ht

/-- A call of `delegate` that is confirmed leaves its keypair in the hook. -/
theorem InStep.confirmed (h : InStep rt wallets s) {d : Delegation}
    (hcall : s.callOf i = some (.delegate d true)) (ht : s.confirm i = some t) :
    t.state.keypair = some d.key ∧
      ((t.now : ℤ) < d.expiresAt * 1000 → getSessionSigner t.now t.state = some d.key) := by
  obtain ⟨-, ht⟩ := Option.ite_none_right_eq_some.mp ht
  rw [hcall] at ht
  cases ht
  have hkey : s.state.keypair = some d.key := (h.calls _ (Page.mem_of_callOf hcall) rfl).symm
  refine ⟨hkey, ?_⟩
  intro hnow
  have hnow' : (s.now : ℤ) < d.expiresAt * 1000 := hnow
  have hne : d.expiresAt * 1000 ≠ 0 := by omega
  simp [getSessionSigner, isSessionValid, Page.confirmDelegate, Page.withoutCall, hnow', hne, hkey]

end Invariant

/-- The secret of a session is kept in every run in which nothing happens that `Keeps` excludes, and
every call of `delegate` that is confirmed in it leaves its keypair in the hook. -/
theorem secret_kept {rt : Runtime} {wallets : List Pubkey} {s t : Page} {as : List Act}
    (hstart : Start s) (h : Steps (guarded (fun s a t => s.next rt wallets a = some t)
      (Keeps rt wallets)) s as t) :
    t.SecretKept wallets ∧ ∀ i d u, t.callOf i = some (.delegate d true) →
      t.next rt wallets (.confirm i) = some u →
      u.state.keypair = some d.key ∧
        ((u.now : ℤ) < d.expiresAt * 1000 → getSessionSigner u.now u.state = some d.key) := by
  have hin : InStep rt wallets t :=
    h.invariant (fun _ _ _ _ hst hs => hs.next hst.2 hst.1) (.start hstart)
  exact ⟨hin.secretKept, fun _ _ _ hcall hu => hin.confirmed hcall hu⟩

namespace Sample
open Stoppage.Sample (genesis runtime bob carol)

/-- The delegation, but the page is rendered once the key is there, which starts the check, and the check
looks for the grant before the transaction is sent. -/
def race : List Act :=
  [.connect (some bob), .render false, .delegate 0 noOptions, .balance 0 carol, .render false,
    .read true, .send 0, .land 0, .finishCheck]

theorem secret_kept_sample :
    ∃ t, Start opening ∧ Steps (guarded (fun s a t => s.next runtime [bob] a = some t)
        (Keeps runtime [bob])) opening delegation t ∧ t.Live [bob] carol ∧ t.SecretKept [bob] ∧
      ∀ i d u, t.callOf i = some (.delegate d true) →
        t.next runtime [bob] (.confirm i) = some u →
        u.state.keypair = some d.key ∧
          ((u.now : ℤ) < d.expiresAt * 1000 → getSessionSigner u.now u.state = some d.key) := by
  have hreaches : reaches (Page.next runtime [bob]) (Keeps runtime [bob])
      (fun t => t.Live [bob] carol) delegation opening = true := by decide +kernel
  obtain ⟨t, hrun, hlive⟩ := steps_of_reaches hreaches
  exact ⟨t, opening_start, hrun, hlive, secret_kept opening_start hrun⟩

/-- The check drops the key that is being delegated to: it is not in the storage when its grant is
on the chain, and not in the hook when the call is confirmed. -/
theorem secret_lost :
    ∃ t u, Start opening ∧
      Steps (fun s a t => s.next runtime [bob] a = some t) opening race t ∧
      ¬ t.SecretKept [bob] ∧ t.next runtime [bob] (.confirm 0) = some u ∧
      u.state.delegated = true ∧ getSessionSigner u.now u.state = none := by
  have hreaches : reaches (Page.next runtime [bob]) (fun _ _ => True)
      (fun t => t.Live [bob] carol ∧ carol ∈ t.generated ∧ carol ∉ t.cleared ∧ t.storage = none ∧
        ((t.next runtime [bob] (.confirm 0)).any fun u =>
          u.state.delegated && (getSessionSigner u.now u.state).isNone) = true)
      race opening = true := by decide +kernel
  obtain ⟨t, hrun, hlive, hgenerated, hcleared, hstorage, hconfirm⟩ := steps_of_reaches hreaches
  obtain ⟨u, hu, hend⟩ := (Option.any_eq_true _ _).mp hconfirm
  rw [Bool.and_eq_true, Option.isNone_iff_eq_none] at hend
  refine ⟨t, u, opening_start, hrun.of_guarded, ?_, hu, hend⟩
  intro hkept
  obtain ⟨st, hst, -⟩ := hkept carol hgenerated hcleared hlive
  rw [hstorage] at hst
  cases hst

end Sample

end Stoppage.SessionKey

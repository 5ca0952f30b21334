import Stoppage.Agent.Pending

/-! # Keeping account of the pending settlements

What the world's functions and the actions do to the pending settlements, in careful moves.
-/

namespace Stoppage.Agent
open TransitionSystem
set_option autoImplicit false

/-! ## What a careful move keeps -/

/-- A careful move forgets nothing, accounts for the entries that leave, and makes no entry for a
market in a snapshot. -/
def Kept (s : System) (w : World) : Prop :=
  ∃ fresh, (∀ k ∈ fresh, ∀ t ∈ s.tasks, k ∉ t.givingUp) ∧ Changes fresh s.shared w ∧
    Accounted s.shared w

/-- The pending settlements are as they were. -/
structure Same (w w' : World) : Prop where
  changes : Changes none w w'
  pending : w'.pendingSettlements = w.pendingSettlements

section Kept
variable {s : System} {w w' v : World}

theorem Changes.refl (w : World) : Changes none w w :=
  .of_pending_eq le_rfl (fun _ htx => htx) (fun _ he => he) rfl

theorem Same.refl (w : World) : Same w w := ⟨.refl w, rfl⟩

theorem Changes.trans (h : Changes none w v) (h' : Changes none v w') : Changes none w w' := by
  refine ⟨h.now.trans h'.now, fun tx htx => h'.confirmed tx (h.confirmed tx htx),
    fun e he => h'.submitted e (h.submitted e he), fun key p' hp' hkey => ?_⟩
  obtain ⟨p, hp, hsame⟩ := h'.window key p' hp' hkey
  obtain ⟨q, hq, hsame'⟩ := h.window key p hp hkey
  exact ⟨q, hq, hsame.trans hsame'⟩

theorem Accounted.of_pending_eq (h : w'.pendingSettlements = w.pendingSettlements) :
    Accounted w w' := by
  intro key p hp hnone
  rw [h, hp] at hnone
  cases hnone

theorem Accounted.same (h : Accounted w v) (hsame : Same v w') : Accounted w w' := by
  intro key p hp hnone
  rw [hsame.pending] at hnone
  exact (h key p hp hnone).imp (fun hs => hs.stable hsame.changes) fun hv => hv.stable hsame.changes

theorem Kept.of_changes (h : Changes none s.shared w) (ha : Accounted s.shared w) : Kept s w := by
  refine ⟨none, fun k hk => ?_, h, ha⟩
  cases hk

theorem Kept.of_same (h : Same s.shared w) : Kept s w :=
  .of_changes h.changes (.of_pending_eq h.pending)

theorem same_push (w : World) (m : OpenMarket) : Same w (w.push m) :=
  ⟨.of_pending_eq le_rfl (fun _ htx => htx) (fun _ he => he) rfl, rfl⟩

theorem same_splice (w : World) (idx : ℕ) : Same w (w.splice idx) :=
  ⟨.of_pending_eq le_rfl (fun _ htx => htx) (fun _ he => he) rfl, rfl⟩

theorem same_submit (w : World) (tx : Tx) : Same w (w.submit tx) :=
  ⟨.of_pending_eq le_rfl (fun _ htx => htx) (fun _ he => List.mem_append_left _ he) rfl, rfl⟩

theorem same_confirm (w : World) (tx : Tx) : Same w (w.confirm tx) :=
  ⟨.of_pending_eq le_rfl (fun _ htx => List.mem_append_left _ htx) (fun _ he => he) rfl, rfl⟩

theorem Same.trans (h : Same w v) (h' : Same v w') : Same w w' :=
  ⟨h.changes.trans h'.changes, h'.pending.trans h.pending⟩

theorem same_track (w : World) (key : Pubkey) (p : PendingSettlement) : Same w (w.track key p) := by
  unfold World.track
  split
  · exact .refl w
  · exact same_push w _

theorem same_updateMatchState (w : World) (e : NormalizedEvent) :
    Same w (w.updateMatchState e) := by
  unfold World.updateMatchState
  split
  · exact .refl w
  · split
    · exact .refl w
    · split
      · exact .refl w
      · exact ⟨.of_pending_eq le_rfl (fun _ htx => htx) (fun _ he => he) rfl, rfl⟩

end Kept

/-! ## The world's functions -/

section Worlds
variable {w w' : World}

theorem persist_eq (w : World) :
    ∃ file, w.persistPendingSettlements = { w with file := file } := by
  unfold World.persistPendingSettlements
  split
  · exact ⟨_, rfl⟩
  · exact ⟨w.file, rfl⟩

theorem deletePending_changes (w : World) (key : Pubkey) :
    Changes none w (w.deletePending key) := by
  obtain ⟨file, hw⟩ := persist_eq { w with pendingSettlements := w.pendingSettlements.delete key }
  rw [World.deletePending, hw]
  refine ⟨le_rfl, fun tx htx => htx, fun e he => he, fun k p' hp' _ => ?_⟩
  exact ⟨p', (OrderedMap.get_delete_eq_some_iff.mp hp').2, rfl⟩

theorem deletePending_accounted {key : Pubkey}
    (h : ∀ p, w.pendingSettlements.get key = some p → Settled w key ∨ Voided w key p) :
    Accounted w (w.deletePending key) := by
  intro k p hp hnone
  have hchanges := deletePending_changes w key
  have hkey : k = key := by
    by_contra hne
    obtain ⟨file, hw⟩ := persist_eq { w with pendingSettlements := w.pendingSettlements.delete key }
    rw [World.deletePending, hw] at hnone
    have hsame := OrderedMap.get_delete_of_ne (m := w.pendingSettlements) hne
    rw [← hsame] at hp
    exact Option.some_ne_none p (hp.symm.trans hnone)
  subst hkey
  exact (h p hp).imp (fun hs => hs.stable hchanges) fun hv => hv.stable hchanges

theorem setPending_changes (w : World) (key : Pubkey) (p : PendingSettlement) :
    Changes (some key) w (w.setPending key p) := by
  obtain ⟨file, hw⟩ := persist_eq { w with pendingSettlements := w.pendingSettlements.set key p }
  rw [World.setPending, hw]
  refine ⟨le_rfl, fun tx htx => htx, fun e he => he, fun k p' hp' hne => ?_⟩
  have hsame := OrderedMap.get_set_of_ne (m := w.pendingSettlements) (v := p)
    (fun hk : k = key => hne (Option.mem_some.mpr hk.symm))
  exact ⟨p', hsame.symm.trans hp', rfl⟩

theorem setPending_accounted (w : World) (key : Pubkey) (p : PendingSettlement) :
    Accounted w (w.setPending key p) := by
  intro k q hq hnone
  obtain ⟨file, hw⟩ := persist_eq { w with pendingSettlements := w.pendingSettlements.set key p }
  rw [World.setPending, hw] at hnone
  by_cases hk : k = key
  · subst hk
    rw [OrderedMap.get_set_self] at hnone
    cases hnone
  · rw [OrderedMap.get_set_of_ne hk, hq] at hnone
    cases hnone

theorem setPending_get (w : World) (key : Pubkey) (p : PendingSettlement) :
    (w.setPending key p).pendingSettlements.get key = some p := by
  obtain ⟨file, hw⟩ := persist_eq { w with pendingSettlements := w.pendingSettlements.set key p }
  rw [World.setPending, hw]
  exact OrderedMap.get_set_self

theorem setPending_renews {key : Pubkey} {p q : PendingSettlement}
    (hp : w.pendingSettlements.get key = some p) (hq : q.enqueuedAt = p.enqueuedAt) :
    Changes none w (w.setPending key q) := by
  have h := setPending_changes w key q
  refine ⟨h.now, h.confirmed, h.submitted, fun k p' hp' _ => ?_⟩
  by_cases hk : k = key
  · subst hk
    rw [setPending_get] at hp'
    cases hp'
    exact ⟨p, hp, hq⟩
  · exact h.window k p' hp' fun hmem => hk (Option.some.inj hmem).symm

theorem enqueue_kept {s : System} (a : SettleAction) {key : Pubkey} (h : RecordsInTime s key) :
    Kept s (s.shared.enqueueSettlementRetry a key) := by
  unfold RecordsInTime at h
  simp only [World.enqueueSettlementRetry]
  split at h
  · rename_i p hp
    rw [hp, Option.map_some, Option.getD_some, if_neg (Nat.not_lt.mpr h)]
    exact .of_changes (setPending_renews hp rfl) (setPending_accounted _ _ _)
  · rename_i hnone
    rw [hnone, Option.map_none, Option.getD_none, if_neg (Nat.not_lt.mpr (Nat.le_add_right _ _))]
    refine ⟨some key, fun k hk => ?_, setPending_changes _ _ _, setPending_accounted _ _ _⟩
    cases hk
    exact h

/-- What `executeAction` puts on record for a settlement that has returned. -/
theorem record_kept {s : System} (a : SettleAction) {r : ActionResult}
    (hsettled : r.success = true → ∀ key ∈ r.marketPda, Settled s.shared key)
    (hguard : ∀ key ∈ (Point.returned a r).records .awake, RecordsInTime s key) :
    Kept s (recordSettlement a r s.shared) := by
  unfold recordSettlement
  split
  · exact .of_same ⟨.refl _, rfl⟩
  · rename_i key hkey
    split
    · rename_i hsuccess
      refine .of_changes (deletePending_changes _ _) ?_
      exact deletePending_accounted fun p _ => .inl (hsettled hsuccess key hkey)
    · rename_i hfailed
      refine enqueue_kept a (hguard key ?_)
      rw [Point.records, if_neg hfailed]
      exact hkey

end Worlds

/-! ## What the caller of an action gets -/

section Gets
variable {cfg : AgentConfig} {w w' : World} {caller : Caller} {st : Settling} {c : SettleAwait}
  {r : ActionResult}

theorem Caller.Gets.on (h : caller.Gets w (.settle st c)) (c' : SettleAwait) :
    caller.Gets w (.settle st c') := by
  cases caller <;> exact h

theorem Caller.Gets.thrown (h : caller.Gets w (.settle st c)) (hr : r.success ≠ true) (wakeAt : ℕ) :
    caller.Gets w (.sleep wakeAt r) := by
  cases caller with
  | finalAttempt now key p rest => exact fun hsuccess => absurd hsuccess hr
  | giveUpVoid now key p rest => exact h.elim
  | _ => trivial

theorem Caller.Gets.failed (h : caller.Gets w (.settle st c)) (hr : r.success ≠ true)
    (a : SettleAction) : caller.Gets w (.returned a r) := by
  cases caller with
  | finalAttempt now key p rest => exact fun hsuccess => absurd hsuccess hr
  | giveUpVoid now key p rest => exact h.elim
  | _ => trivial

theorem Caller.Gets.confirmed (h : caller.Gets w (.settle st c)) (a : SettleAction)
    (signature : String) :
    caller.Gets w (.returned a (confirmedAs signature st.market.marketPda)) := by
  cases caller with
  | finalAttempt now key p rest =>
    intro _ k hk
    cases hk
    exact h
  | giveUpVoid now key p rest => exact h.elim
  | _ => trivial

/-- The caller of an action that no housekeeping pass waits for in this place. -/
theorem Caller.Gets.anything {p : Point} (h : caller.Gets w p)
    (hfinal : ∀ now key q rest, ¬ (Caller.finalAttempt now key q rest).Gets w p)
    (hvoid : ∀ now key q rest, ¬ (Caller.giveUpVoid now key q rest).Gets w p) (v : World)
    (p' : Point) : caller.Gets v p' := by
  cases caller with
  | finalAttempt now key q rest => exact absurd h (hfinal now key q rest)
  | giveUpVoid now key q rest => exact absurd h (hvoid now key q rest)
  | _ => trivial

end Gets

/-! ## Actions for a caller -/

section Actions
variable {cfg : AgentConfig} {w w' : World} {caller : Caller} {f : Flow} {answer : Answer}

theorem Caller.Fits.same (h : caller.Fits w) (hsame : Same w w') : caller.Fits w' :=
  h.stable hsame.changes fun k hk => by cases hk

theorem Caller.Gets.same {p : Point} (h : caller.Gets w p) (hsame : Same w w') :
    caller.Gets w' p :=
  h.stable hsame.changes fun k hk => by cases hk

theorem settleSend_serves {st : Settling} {c : SettleAwait} {tx : Tx} {rest : List Tx}
    (h : caller.Serves w (.settle st c)) (hargs : st.args.marketPda = st.market.marketPda)
    (hlast : ∀ t ∈ (tx :: rest).getLast?, t.settles = some st.market.marketPda) :
    Same w (settleSend st tx rest w).1 ∧ caller.Serves (settleSend st tx rest w).1
      (finishAction (some st.action) (settleSend st tx rest w)).2 := by
  have hsame := same_submit w tx
  exact ⟨hsame, h.fits.same hsame, ⟨hargs, hlast⟩, (h.gets.on _).same hsame⟩

/-- The first transaction of a settlement, when the last one is by the market's own arguments. -/
theorem settleSend_args {st : Settling} {c : SettleAwait} {tx last : Tx} {rest : List Tx}
    (h : caller.Serves w (.settle st c)) (hargs : st.args.marketPda = st.market.marketPda)
    (hlast : (tx :: rest).getLast? = some last)
    (hsettles : last.settles = some st.args.marketPda) :
    Same w (settleSend st tx rest w).1 ∧ caller.Serves (settleSend st tx rest w).1
      (finishAction (some st.action) (settleSend st tx rest w)).2 := by
  refine settleSend_serves h hargs fun t ht => ?_
  cases hlast.symm.trans ht
  rw [hsettles, hargs]

theorem resumeSettle_serves {st : Settling} {c : SettleAwait} (hlive : cfg.dryRun = false)
    (h : caller.Serves w (.settle st c))
    (hrun : resumeSettle cfg st c answer w = some (w', f)) :
    Same w w' ∧ caller.Serves w' (finishAction (some st.action) (w', f)).2 := by
  have hthrown : ∀ e, Same w w ∧
      caller.Serves w (finishAction (some st.action) (w, .thrown e)).2 :=
    fun e => ⟨.refl w, h.fits, trivial, h.gets.thrown Bool.false_ne_true _⟩
  cases resumeSettle_turn hrun with
  | dryRun hdry => exact absurd (hlive.symm.trans hdry) Bool.false_ne_true
  | proved => exact ⟨.refl w, h.fits, ⟨h.settles.1, fun tx htx => by cases htx⟩, h.gets.on _⟩
  | unproved e =>
    refine ⟨.refl w, h.fits, fun hsuccess => ?_, h.gets.failed Bool.false_ne_true _⟩
    cases hsuccess
  | bundle => exact settleSend_args h h.settles.1 rfl rfl
  | tooLarge => exact ⟨.refl w, h.fits, ⟨h.settles.1, fun tx htx => by cases htx⟩, h.gets.on _⟩
  | buildThrows e => exact hthrown e
  | resolve => exact settleSend_args h h.settles.1 rfl rfl
  | resume => exact settleSend_args h h.settles.1 rfl rfl
  | accountThrows e => exact hthrown e
  | next tx next rest signature =>
    have hconfirm := same_confirm w tx
    have hserves : caller.Serves (w.confirm tx) (.settle st (.submit next rest)) := by
      refine ⟨h.fits.same hconfirm, ⟨h.settles.1, fun t ht => h.settles.2 t ?_⟩,
        (h.gets.on _).same hconfirm⟩
      exact (List.getLast?_cons_cons (a := tx)).trans ht
    obtain ⟨hsame, hnext⟩ := settleSend_serves hserves hserves.settles.1 hserves.settles.2
    exact ⟨hconfirm.trans hsame, hnext⟩
  | last tx signature =>
    have hsame := (same_confirm w tx).trans (same_splice _ st.idx)
    refine ⟨hsame, h.fits.same hsame, ?_, (h.gets.on _).same hsame⟩
    exact ⟨tx, List.mem_append_right _ List.mem_cons_self, h.settles.2 tx rfl⟩
  | sendThrows tx rest e => exact hthrown e
  | attested signature found =>
    refine ⟨.refl w, h.fits, fun _ key hkey => ?_, h.gets.confirmed _ _⟩
    cases hkey
    exact h.settles

theorem resumeCreate_serves {a : CreateAction} {closesAt : ℕ} {c : CreateAwait}
    (h : caller.Serves w (.create a closesAt c))
    (hrun : resumeCreate cfg a closesAt c answer w = some (w', f)) :
    Same w w' ∧ caller.Serves w' (finishAction none (w', f)).2 := by
  have hgets := h.gets.anything (fun _ _ _ _ => not_false) fun _ _ _ _ => not_false
  have hfailed : ∀ e, (finishAction none (w, createFailed cfg a e)).2.Settles w := by
    intro e
    unfold createFailed
    split <;> trivial
  cases resumeCreate_turn hrun with
  | found =>
    have hsame := same_push w (opened cfg w a)
    exact ⟨hsame, h.fits.same hsame, trivial, hgets _ _⟩
  | missing answer hnot =>
    have hsame := same_push w (opened cfg w a)
    exact ⟨hsame, h.fits.same hsame, trivial, hgets _ _⟩
  | sends =>
    have hsame := same_submit w (.createMarket (cfg.marketPda a.predicate) a.predicate closesAt)
    exact ⟨hsame, h.fits.same hsame, trivial, hgets _ _⟩
  | noBlockhash e f hf =>
    subst hf
    exact ⟨.refl w, h.fits, hfailed e, hgets _ _⟩
  | confirms signature =>
    have hsame := same_confirm w (.createMarket (cfg.marketPda a.predicate) a.predicate closesAt)
    exact ⟨hsame, h.fits.same hsame, trivial, hgets _ _⟩
  | unconfirmed e f hf =>
    subst hf
    exact ⟨.refl w, h.fits, hfailed e, hgets _ _⟩

theorem resumeQuote_serves {marketPda : Pubkey} {snapshot : PricingSnapshot} {c : QuoteAwait}
    (h : caller.Serves w (.quote marketPda snapshot c))
    (hrun : resumeQuote marketPda snapshot c answer w = some (w', f)) :
    Same w w' ∧ caller.Serves w' (finishAction none (w', f)).2 := by
  have hgets := h.gets.anything (fun _ _ _ _ => not_false) fun _ _ _ _ => not_false
  cases resumeQuote_turn hrun with
  | sends =>
    have hsame := same_submit w (.attestPricing marketPda snapshot)
    exact ⟨hsame, h.fits.same hsame, trivial, hgets _ _⟩
  | noBlockhash e => exact ⟨.refl w, h.fits, trivial, hgets _ _⟩
  | confirms signature =>
    have hsame := same_confirm w (.attestPricing marketPda snapshot)
    exact ⟨hsame, h.fits.same hsame, trivial, hgets _ _⟩
  | unconfirmed e => exact ⟨.refl w, h.fits, trivial, hgets _ _⟩

theorem free_of_not_isPending {key : Pubkey} (h : w.isPending key = false) : Free w key :=
  .inl (Option.isNone_iff_eq_none.mp (Option.isSome_eq_false_iff.mp h))

theorem resumeVoid_serves {market : OpenMarket} {c : VoidAwait}
    (h : caller.Serves w (.void market c))
    (hsends : ∀ now key p rest e, caller = .giveUpVoid now key p rest →
      answer = .blockhash (.error e) → w.isPending key = false)
    (hrun : resumeVoid market c answer w = some (w', f)) :
    Same w w' ∧ caller.Serves w' (finishAction none (w', f)).2 := by
  have hgets := h.gets
  cases resumeVoid_turn hrun with
  | sends =>
    have hsame := same_submit w (.voidMarket market.marketPda)
    refine ⟨hsame, h.fits.same hsame, trivial, ?_⟩
    cases caller with
    | finalAttempt now key p rest => exact hgets.elim
    | giveUpVoid now key p rest =>
      rcases hgets with hfree | hkey
      · exact .inl (hfree.stable hsame.changes fun hk => by cases hk)
      · subst hkey
        refine .inr ⟨w.now, List.mem_append_right _ List.mem_cons_self, ?_⟩
        exact h.fits.1.2.trans_le h.fits.1.1
    | _ => trivial
  | noBlockhash e =>
    refine ⟨.refl w, h.fits, trivial, ?_⟩
    cases caller with
    | finalAttempt now key p rest => exact hgets.elim
    | giveUpVoid now key p rest =>
      exact .inl (free_of_not_isPending (hsends now key p rest _ rfl rfl))
    | _ => trivial
  | confirms signature =>
    have hsame := same_confirm w (.voidMarket market.marketPda)
    refine ⟨hsame, h.fits.same hsame, trivial, ?_⟩
    cases caller with
    | finalAttempt now key p rest => exact hgets.elim
    | giveUpVoid now key p rest => exact Caller.Gets.same (p := .void market .submit) hgets hsame
    | _ => trivial
  | unconfirmed e =>
    refine ⟨.refl w, h.fits, trivial, ?_⟩
    cases caller with
    | finalAttempt now key p rest => exact hgets.elim
    | giveUpVoid now key p rest => exact hgets
    | _ => trivial

/-- Going on with an action keeps account, and leaves the action where it serves its caller. -/
theorem resumeAction_serves {s : System} {p p' : Point} (hlive : cfg.dryRun = false)
    (h : caller.Serves s.shared p) (hmem : Task.acting caller p ∈ s.tasks)
    (htime : ∀ key ∈ p.records answer, RecordsInTime s key)
    (hsends : ∀ now key q rest e, caller = .giveUpVoid now key q rest →
      answer = .blockhash (.error e) → s.shared.isPending key = false)
    (hrun : resumeAction cfg p answer s.shared = some (w', p')) :
    Kept s w' ∧ caller.Serves w' p' := by
  unfold resumeAction at hrun
  split at hrun
  · rename_i a r
    cases hrun
    obtain ⟨fresh, hfresh, hchanges, haccounted⟩ := record_kept a h.settles htime
    refine ⟨⟨fresh, hfresh, hchanges, haccounted⟩, ?_, trivial, ?_⟩
    · exact h.fits.stable hchanges fun k hk => hfresh k hk _ hmem
    · have hgets := h.gets
      cases caller with
      | finalAttempt now key q rest =>
        intro hsuccess hsome
        obtain ⟨k, hk⟩ := Option.isSome_iff_exists.mp hsome
        have hkey : key ∉ fresh := fun hin => hfresh key hin _ hmem List.mem_cons_self
        rcases hgets hsuccess k hk with hfree | rfl
        · exact hfree.stable hchanges hkey
        · exact .inr ((h.settles hsuccess k hk).stable hchanges)
      | giveUpVoid now key q rest => exact hgets.elim
      | _ => trivial
  · obtain ⟨⟨v, f⟩, hpoint, hfinish⟩ := Option.map_eq_some_iff.mp hrun
    have hworld := finishAction_shared p.settling v f
    rw [hfinish] at hworld
    cases hworld
    have hserves : Same s.shared w' ∧ caller.Serves w' (finishAction p.settling (w', f)).2 := by
      cases p with
      | create a closesAt c => exact resumeCreate_serves h hpoint
      | settle st c => exact resumeSettle_serves hlive h hpoint
      | void market c => exact resumeVoid_serves h hsends hpoint
      | quote marketPda snapshot c => exact resumeQuote_serves h hpoint
      | returned a r => cases hpoint
      | sleep wakeAt r => cases hpoint
    rw [hfinish] at hserves
    exact ⟨.of_same hserves.1, hserves.2⟩

end Actions

end Stoppage.Agent

import Stoppage.Agent.Terms

/-! # What becomes of a pending settlement

An entry may leave `pendingSettlements` with a settlement of its market that was confirmed, or with a
void of it that was sent after the give-up window. `Careful` says what the moves of a run must not
run into for this to be so, and `Task.Serves` what each task then knows while it waits.
-/

namespace Stoppage.Agent
open TransitionSystem
set_option autoImplicit false

/-! ## Settled and voided markets -/

def Tx.settles : Tx → Option Pubkey
  | .resolveAndSettle args | .settleFromProof args => some args.marketPda
  | _ => none

def Settled (w : World) (key : Pubkey) : Prop := ∃ tx ∈ w.confirmed, tx.settles = some key

/-- A void of the market was sent after the give-up window of the entry. -/
def Voided (w : World) (key : Pubkey) (p : PendingSettlement) : Prop :=
  ∃ time, (time, Tx.voidMarket key) ∈ w.submitted ∧ p.enqueuedAt + settleRetryGiveUpMs < time

/-- Each entry that is there before and not after is accounted for. -/
def Accounted (w w' : World) : Prop :=
  ∀ key p, w.pendingSettlements.get key = some p → w'.pendingSettlements.get key = none →
    Settled w' key ∨ Voided w' key p

/-! ## Careful moves -/

/-- The markets that a housekeeping pass has in its snapshot, from the one it is at. -/
def Caller.givingUp : Caller → List Pubkey
  | .finalAttempt _ key _ rest | .giveUpVoid _ key _ rest => key :: rest.map Prod.fst
  | _ => []

def Task.givingUp : Task → List Pubkey
  | .advising _ => []
  | .acting caller _ => caller.givingUp

/-- The market for which a failed attempt is put on record. -/
def Point.records : Point → Answer → Option Pubkey
  | .returned _ r, .awake => if r.success then none else r.marketPda
  | _, _ => none

/-- A failed attempt renews an entry within the entry's window, and makes a new one only for a
market that no housekeeping pass has in its snapshot. -/
def RecordsInTime (s : System) (key : Pubkey) : Prop :=
  match s.shared.pendingSettlements.get key with
  | some p => s.shared.now ≤ p.enqueuedAt + settleRetryGiveUpMs
  | none => ∀ t ∈ s.tasks, key ∉ t.givingUp

def World.isPending (w : World) (key : Pubkey) : Bool := (w.pendingSettlements.get key).isSome

/-- Where a housekeeping pass calls `settleMarket` or `voidMarket` for a pending market, the first
tracked market of its kind and match is that market. The final attempt may find none. -/
def FindsOwn (w : World) : Next → Prop
  | .calls (.finalAttempt _ key p _) _ =>
    w.isPending key = true → ∀ m ∈ w.openMarkets.find? (sameLine p.action.predicate),
      m.marketPda = key
  | .calls (.giveUpVoid _ key p _) _ =>
    w.isPending key = true → ∃ m ∈ w.openMarkets.find? (sameLine p.action.predicate),
      m.marketPda = key
  | _ => True

/-- The market of a housekeeping pass whose void fails before it is sent. -/
def Move.unsent (s : System) : Move → Option Pubkey
  | .resume i (.blockhash (.error _)) =>
    match s.tasks[i]? with
    | some (.acting (.giveUpVoid _ key _ _) _) => some key
    | _ => none
  | _ => none

/-- The file has a row with a match for every pending market. -/
def World.Filed (w : World) : Prop :=
  ∀ row ∈ w.pendingSettlements.entries, ∃ rows ∈ w.file, ∃ kept ∈ rows,
    kept.1 = row.1 ∧ kept.2.action.predicate.matchId ≠ ""

def Move.restarts : Move → Bool
  | .restart => true
  | _ => false

structure Careful (cfg : AgentConfig) (s : System) (mv : Move) : Prop where
  live : cfg.dryRun = false
  inTime : ∀ q ∈ mv.point s, ∀ key ∈ q.1.records q.2, RecordsInTime s key
  finds : ∀ r ∈ mv.next cfg s, FindsOwn r.1 r.2
  sends : ∀ key ∈ mv.unsent s, s.shared.isPending key = false
  filed : mv.restarts = true → s.shared.Filed

section Decidable

instance (s : System) (key : Pubkey) : Decidable (RecordsInTime s key) := by
  unfold RecordsInTime
  split <;> infer_instance

instance (s : System) (o : Option Pubkey) : Decidable (∀ key ∈ o, RecordsInTime s key) :=
  Option.decidableForallMem o

instance (w : World) (n : Next) : Decidable (FindsOwn w n) := by
  unfold FindsOwn
  split <;> infer_instance

instance (w : World) : Decidable w.Filed := by
  unfold World.Filed
  infer_instance

instance (w : World) (o : Option Pubkey) : Decidable (∀ key ∈ o, w.isPending key = false) :=
  Option.decidableForallMem o

instance (cfg : AgentConfig) (s : System) (mv : Move) : Decidable (Careful cfg s mv) :=
  decidable_of_iff (cfg.dryRun = false ∧
      (∀ q ∈ mv.point s, ∀ key ∈ q.1.records q.2, RecordsInTime s key) ∧
      (∀ r ∈ mv.next cfg s, FindsOwn r.1 r.2) ∧
      (∀ key ∈ mv.unsent s, s.shared.isPending key = false) ∧
      (mv.restarts = true → s.shared.Filed))
    ⟨fun ⟨h1, h2, h3, h4, h5⟩ => ⟨h1, h2, h3, h4, h5⟩,
      fun ⟨h1, h2, h3, h4, h5⟩ => ⟨h1, h2, h3, h4, h5⟩⟩

end Decidable

/-! ## What a waiting task knows -/

/-- An entry for the market may leave at any time: there is none, or the market is settled. -/
def Free (w : World) (key : Pubkey) : Prop :=
  w.pendingSettlements.get key = none ∨ Settled w key

/-- The row of a snapshot has the window of the entry that is there now. -/
def Fits (w : World) (row : Pubkey × PendingSettlement) : Prop :=
  Settled w row.1 ∨ ∀ p, w.pendingSettlements.get row.1 = some p → p.enqueuedAt = row.2.enqueuedAt

/-- The snapshot of a housekeeping pass, at the row where it is. -/
def Caller.Fits (w : World) : Caller → Prop
  | .finalAttempt now key p rest | .giveUpVoid now key p rest =>
    (now ≤ w.now ∧ p.enqueuedAt + settleRetryGiveUpMs < now) ∧
      ∀ row ∈ (key, p) :: rest, Agent.Fits w row
  | _ => True

/-- The last transaction of a settlement settles its market, and after it the market is settled. -/
def Point.Settles (w : World) : Point → Prop
  | .settle st (.attest _) => Settled w st.market.marketPda
  | .settle st c => st.args.marketPda = st.market.marketPda ∧
      ∀ tx ∈ c.sends.getLast?, tx.settles = some st.market.marketPda
  | .returned _ r => r.success = true → ∀ key ∈ r.marketPda, Settled w key
  | _ => True

/-- What an action does for the housekeeping pass that called it. -/
def Caller.Gets (w : World) : Caller → Point → Prop
  | .finalAttempt _ key _ _, .settle st _ => Free w key ∨ st.market.marketPda = key
  | .finalAttempt _ key _ _, .returned _ r =>
    r.success = true → ∀ k ∈ r.marketPda, Free w key ∨ k = key
  | .finalAttempt _ key _ _, .sleep _ r => r.success = true → r.marketPda.isSome → Free w key
  | .finalAttempt .., _ => False
  | .giveUpVoid _ key _ _, .void market .blockhash => Free w key ∨ market.marketPda = key
  | .giveUpVoid _ key p _, .void _ .submit => Free w key ∨ Voided w key p
  | .giveUpVoid _ key p _, .sleep _ _ => Free w key ∨ Voided w key p
  | .giveUpVoid .., _ => False
  | _, _ => True

structure Caller.Serves (w : World) (caller : Caller) (p : Point) : Prop where
  fits : caller.Fits w
  settles : p.Settles w
  gets : caller.Gets w p

def Task.Serves (w : World) : Task → Prop
  | .advising _ => True
  | .acting caller p => caller.Serves w p

/-! ## What a move may change -/

/-- Nothing that was sent or confirmed is forgotten, and an entry keeps its window as long as it is
there. Entries are new only for the markets in `fresh`. -/
structure Changes (fresh : Option Pubkey) (w w' : World) : Prop where
  now : w.now ≤ w'.now
  confirmed : ∀ tx ∈ w.confirmed, tx ∈ w'.confirmed
  submitted : ∀ e ∈ w.submitted, e ∈ w'.submitted
  window : ∀ key p', w'.pendingSettlements.get key = some p' → key ∉ fresh →
    ∃ p, w.pendingSettlements.get key = some p ∧ p'.enqueuedAt = p.enqueuedAt

theorem Changes.of_pending_eq {w w' : World} (hnow : w.now ≤ w'.now)
    (hconfirmed : ∀ tx ∈ w.confirmed, tx ∈ w'.confirmed)
    (hsubmitted : ∀ e ∈ w.submitted, e ∈ w'.submitted)
    (hpending : w'.pendingSettlements = w.pendingSettlements) : Changes none w w' where
  now := hnow
  confirmed := hconfirmed
  submitted := hsubmitted
  window _ p' hp' _ := ⟨p', hpending ▸ hp', rfl⟩

section Stable
variable {fresh : Option Pubkey} {w w' : World}

theorem Settled.stable {key : Pubkey} (h : Settled w key) (hc : Changes fresh w w') :
    Settled w' key := by
  obtain ⟨tx, hmem, hkey⟩ := h
  exact ⟨tx, hc.confirmed tx hmem, hkey⟩

theorem Voided.stable {key : Pubkey} {p : PendingSettlement} (h : Voided w key p)
    (hc : Changes fresh w w') : Voided w' key p := by
  obtain ⟨time, hmem, hlate⟩ := h
  exact ⟨time, hc.submitted _ hmem, hlate⟩

theorem Free.stable {key : Pubkey} (h : Free w key) (hc : Changes fresh w w') (hkey : key ∉ fresh) :
    Free w' key := by
  rcases h with hnone | hsettled
  · refine .inl (Option.eq_none_iff_forall_ne_some.mpr fun p' hp' => ?_)
    obtain ⟨p, hp, -⟩ := hc.window key p' hp' hkey
    rw [hnone] at hp
    cases hp
  · exact .inr (hsettled.stable hc)

theorem Fits.stable {row : Pubkey × PendingSettlement} (h : Fits w row) (hc : Changes fresh w w')
    (hkey : row.1 ∉ fresh) : Fits w' row := by
  rcases h with hsettled | hwindow
  · exact .inl (hsettled.stable hc)
  · refine .inr fun p' hp' => ?_
    obtain ⟨p, hp, hsame⟩ := hc.window _ p' hp' hkey
    exact hsame.trans (hwindow p hp)

theorem Caller.Fits.stable {caller : Caller} (h : caller.Fits w) (hc : Changes fresh w w')
    (hfresh : ∀ key ∈ fresh, key ∉ caller.givingUp) : caller.Fits w' := by
  have hrows : ∀ rows : List (Pubkey × PendingSettlement),
      (∀ k ∈ fresh, k ∉ rows.map Prod.fst) → (∀ row ∈ rows, Agent.Fits w row) →
      ∀ row ∈ rows, Agent.Fits w' row := by
    intro rows hnot hfits row hrow
    refine (hfits row hrow).stable hc fun hmem => ?_
    exact hnot _ hmem (List.mem_map_of_mem hrow)
  cases caller with
  | finalAttempt now key p rest => exact ⟨⟨h.1.1.trans hc.now, h.1.2⟩, hrows _ hfresh h.2⟩
  | giveUpVoid now key p rest => exact ⟨⟨h.1.1.trans hc.now, h.1.2⟩, hrows _ hfresh h.2⟩
  | _ => trivial

theorem Point.Settles.stable {p : Point} (h : p.Settles w) (hc : Changes fresh w w') :
    p.Settles w' := by
  cases p with
  | settle st c =>
    cases c with
    | attest signature => exact Settled.stable h hc
    | _ => exact h
  | returned a r => exact fun hr key hkey => (h hr key hkey).stable hc
  | _ => trivial

theorem Caller.Gets.stable {caller : Caller} {p : Point} (h : caller.Gets w p)
    (hc : Changes fresh w w') (hfresh : ∀ key ∈ fresh, key ∉ caller.givingUp) :
    caller.Gets w' p := by
  cases caller with
  | finalAttempt now key pending rest =>
    have hkey : key ∉ fresh := fun hmem => hfresh key hmem List.mem_cons_self
    cases p with
    | settle st c => exact h.imp_left fun hfree => hfree.stable hc hkey
    | returned a r => exact fun hr k hk => (h hr k hk).imp_left fun hfree => hfree.stable hc hkey
    | sleep wakeAt r => exact fun hr hsome => (h hr hsome).stable hc hkey
    | _ => exact h
  | giveUpVoid now key pending rest =>
    have hkey : key ∉ fresh := fun hmem => hfresh key hmem List.mem_cons_self
    cases p with
    | void market c =>
      cases c with
      | blockhash => exact h.imp_left fun hfree => hfree.stable hc hkey
      | submit => exact h.imp (fun hfree => hfree.stable hc hkey) fun hvoided => hvoided.stable hc
    | sleep wakeAt r =>
      exact h.imp (fun hfree => hfree.stable hc hkey) fun hvoided => hvoided.stable hc
    | _ => exact h
  | _ => trivial

theorem Task.Serves.stable {t : Task} (h : t.Serves w) (hc : Changes fresh w w')
    (hfresh : ∀ key ∈ fresh, key ∉ t.givingUp) : t.Serves w' := by
  cases t with
  | advising e => trivial
  | acting caller p =>
    exact ⟨h.fits.stable hc hfresh, h.settles.stable hc, h.gets.stable hc hfresh⟩

end Stable

end Stoppage.Agent

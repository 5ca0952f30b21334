import Mathlib.Data.Set.Lattice
import Mathlib.Tactic

/-! # Operations with a footprint

A store has places and a log. An operation that fails or leaves another state is confined to the
places it reads, some of which it writes, when it changes no other place and when what it does, what
it logs and how it fails depend on no other place. Confined operations compose, and two of which
neither writes what the other reads may change places. So a batch of such operations does the same
in every order.
-/

namespace Footprint
set_option autoImplicit false

variable {σ α ε L : Type*}

/-- When two states have the same at a place, and the log of a state. -/
structure Store (σ α L : Type*) where
  same : α → σ → σ → Prop
  log : σ → List L
  equivalence : ∀ a, Equivalence (same a)

/-- The states agree on the places. -/
def Store.Agree (S : Store σ α L) (places : Set α) (s t : σ) : Prop := ∀ a ∈ places, S.same a s t

/-- The same entries were added to both logs. -/
def Store.SameNews (S : Store σ α L) (s s' t t' : σ) : Prop :=
  ∃ es, S.log s' = S.log s ++ es ∧ S.log t' = S.log t ++ es

structure Confined (S : Store σ α L) (reads writes : Set α) (f : σ → Except ε σ) : Prop where
  subset : writes ⊆ reads
  frame : ∀ s s', f s = .ok s' → S.Agree writesᶜ s s'
  succeeds : ∀ s t s', S.Agree reads s t → f s = .ok s' →
    ∃ t', f t = .ok t' ∧ S.Agree reads s' t' ∧ S.SameNews s s' t t'
  fails : ∀ s t e, S.Agree reads s t → f s = .error e → f t = .error e

namespace Store
variable {S : Store σ α L} {places : Set α} {s t u s' t' u' : σ}

theorem Agree.refl (S : Store σ α L) (places : Set α) (s : σ) : S.Agree places s s :=
  fun a _ => (S.equivalence a).refl s

theorem Agree.symm (h : S.Agree places s t) : S.Agree places t s :=
  fun a ha => (S.equivalence a).symm (h a ha)

theorem Agree.trans (h : S.Agree places s t) (h' : S.Agree places t u) : S.Agree places s u :=
  fun a ha => (S.equivalence a).trans (h a ha) (h' a ha)

theorem Agree.mono {places' : Set α} (h : S.Agree places s t) (hle : places' ⊆ places) :
    S.Agree places' s t := fun a ha => h a (hle ha)

theorem Agree.union {places' : Set α} (h : S.Agree places s t) (h' : S.Agree places' s t) :
    S.Agree (places ∪ places') s t := by
  rintro a (ha | ha)
  · exact h a ha
  · exact h' a ha

theorem SameNews.refl (S : Store σ α L) (s t : σ) : S.SameNews s s t t :=
  ⟨[], (List.append_nil _).symm, (List.append_nil _).symm⟩

theorem SameNews.trans (h : S.SameNews s s' t t') (h' : S.SameNews s' u t' u') :
    S.SameNews s u t u' := by
  obtain ⟨es, hs, ht⟩ := h
  obtain ⟨fs, hs', ht'⟩ := h'
  exact ⟨es ++ fs, by rw [hs', hs, List.append_assoc], by rw [ht', ht, List.append_assoc]⟩

end Store

/-! ## Composition -/

namespace Confined
variable {S : Store σ α L} {reads writes reads' writes' : Set α} {f g : σ → Except ε σ}

theorem skip : Confined S ∅ ∅ (fun s => (.ok s : Except ε σ)) where
  subset := subset_rfl
  frame s s' h := by
    cases h
    exact .refl S _ s
  succeeds s t s' hagree h := by
    cases h
    exact ⟨t, rfl, hagree, .refl S s t⟩
  fails s t e hagree h := by cases h

/-- A footprint may be taken larger. -/
theorem mono (h : Confined S reads writes f) (hreads : reads ⊆ reads') (hwrites : writes ⊆ writes')
    (hsub : writes' ⊆ reads') : Confined S reads' writes' f where
  subset := hsub
  frame s s' hf := (h.frame s s' hf).mono (Set.compl_subset_compl.mpr hwrites)
  succeeds s t s' hagree hf := by
    obtain ⟨t', ht, hsame, hnews⟩ := h.succeeds s t s' (hagree.mono hreads) hf
    refine ⟨t', ht, fun a ha => ?_, hnews⟩
    by_cases hmem : a ∈ reads
    · exact hsame a hmem
    · -- a place that is not read is not written either
      have hnot : a ∈ writesᶜ := fun hw => hmem (h.subset hw)
      have hs := (h.frame s s' hf) a hnot
      have ht' := (h.frame t t' ht) a hnot
      exact (S.equivalence a).trans ((S.equivalence a).symm hs)
        ((S.equivalence a).trans (hagree a ha) ht')
  fails s t e hagree hf := h.fails s t e (hagree.mono hreads) hf

/-- One operation and then another. -/
theorem andThen (hf : Confined S reads writes f) (hg : Confined S reads' writes' g) :
    Confined S (reads ∪ reads') (writes ∪ writes') (fun s => f s >>= g) := by
  have hf' : Confined S (reads ∪ reads') (writes ∪ writes') f := hf.mono
    Set.subset_union_left Set.subset_union_left (Set.union_subset_union hf.subset hg.subset)
  have hg' : Confined S (reads ∪ reads') (writes ∪ writes') g := hg.mono
    Set.subset_union_right Set.subset_union_right (Set.union_subset_union hf.subset hg.subset)
  have hsplit {s s' : σ} (h : (f s >>= g) = .ok s') : ∃ u, f s = .ok u ∧ g u = .ok s' := by
    cases hs : f s with
    | error e =>
      rw [hs] at h
      cases h
    | ok u =>
      rw [hs] at h
      exact ⟨u, rfl, h⟩
  refine ⟨hf'.subset, fun s s' h => ?_, fun s t s' hagree h => ?_, fun s t e hagree h => ?_⟩
  · obtain ⟨u, hu, hs'⟩ := hsplit h
    exact (hf'.frame s u hu).trans (hg'.frame u s' hs')
  · obtain ⟨u, hu, hs'⟩ := hsplit h
    obtain ⟨v, hv, hagree', hnews⟩ := hf'.succeeds s t u hagree hu
    obtain ⟨t', ht', hagree'', hnews'⟩ := hg'.succeeds u v s' hagree' hs'
    refine ⟨t', ?_, hagree'', hnews.trans hnews'⟩
    rw [hv]
    exact ht'
  · cases hs : f s with
    | error e' =>
      rw [hs] at h
      rw [hf'.fails s t e' hagree hs]
      exact h
    | ok u =>
      rw [hs] at h
      obtain ⟨v, hv, hagree', -⟩ := hf'.succeeds s t u hagree hs
      rw [hv]
      exact hg'.fails u v e hagree' h

end Confined

/-! ## Batches -/

/-- An operation with its footprint. -/
structure Op (S : Store σ α L) (ε : Type*) where
  run : σ → Except ε σ
  reads : Set α
  writes : Set α
  confined : Confined S reads writes run

namespace Op
variable {S : Store σ α L} {p q : Op S ε} {s t : σ}

/-- Neither writes what the other reads. -/
def Independent (p q : Op S ε) : Prop :=
  (∀ a ∈ p.writes, a ∉ q.reads) ∧ ∀ a ∈ q.writes, a ∉ p.reads

theorem Independent.symm (h : p.Independent q) : q.Independent p := ⟨h.2, h.1⟩

/-- What the operation logs, or how it fails, and the state after it: that before it if it fails. -/
def attempt (p : Op S ε) (s : σ) : Except ε (List L) × σ :=
  match p.run s with
  | .ok t => (.ok ((S.log t).drop (S.log s).length), t)
  | .error e => (.error e, s)

theorem attempt_frame (p : Op S ε) (s : σ) : S.Agree p.writesᶜ s (p.attempt s).2 := by
  unfold attempt
  split
  · rename_i t ht
    exact p.confined.frame s t ht
  · exact .refl S _ s

theorem attempt_congr {places : Set α} (hsub : p.reads ⊆ places) (hagree : S.Agree places s t) :
    (p.attempt s).1 = (p.attempt t).1 ∧ S.Agree places (p.attempt s).2 (p.attempt t).2 := by
  have h := p.confined.mono hsub subset_rfl (p.confined.subset.trans hsub)
  cases hs : p.run s with
  | error e =>
    have ht := h.fails s t e hagree hs
    simp only [attempt, hs, ht]
    exact ⟨trivial, hagree⟩
  | ok s' =>
    obtain ⟨t', ht, hagree', es, hes, hes'⟩ := h.succeeds s t s' hagree hs
    simp only [attempt, hs, ht, hes, hes', List.drop_left]
    exact ⟨trivial, hagree'⟩

/-- What was logged. -/
def news : Except ε (List L) → List L
  | .ok es => es
  | .error _ => []

theorem attempt_log (p : Op S ε) (s : σ) :
    S.log (p.attempt s).2 = S.log s ++ news (p.attempt s).1 := by
  unfold attempt
  split
  · rename_i t ht
    obtain ⟨_, -, -, es, hes, -⟩ := p.confined.succeeds s s t (.refl S _ s) ht
    dsimp only [news]
    rw [hes, List.drop_left]
  · exact (List.append_nil _).symm

/-- **Operations of which neither writes what the other reads change places.** -/
theorem Independent.swap (h : p.Independent q) (s : σ) :
    (q.attempt (p.attempt s).2).1 = (q.attempt s).1 ∧
    (p.attempt (q.attempt s).2).1 = (p.attempt s).1 ∧
    S.Agree Set.univ (q.attempt (p.attempt s).2).2 (p.attempt (q.attempt s).2).2 := by
  have hq := attempt_congr subset_rfl
    ((p.attempt_frame s).mono fun a ha hw => h.1 a hw ha).symm
  have hp := attempt_congr subset_rfl
    ((q.attempt_frame s).mono fun a ha hw => h.2 a hw ha).symm
  refine ⟨hq.1, hp.1, fun a _ => ?_⟩
  have ha := S.equivalence a
  by_cases hmem : a ∈ q.reads
  · -- what `q` leaves there, `p` leaves alone
    have hnot : a ∈ p.writesᶜ := fun hw => h.1 a hw hmem
    exact ha.trans (hq.2 a hmem) (p.attempt_frame _ a hnot)
  · have hnot : a ∈ q.writesᶜ := fun hw => hmem (q.confined.subset hw)
    have hkept := q.attempt_frame (p.attempt s).2 a hnot
    by_cases hmem' : a ∈ p.reads
    · exact ha.trans (ha.symm hkept) (ha.symm (hp.2 a hmem'))
    · have hnot' : a ∈ p.writesᶜ := fun hw => hmem' (p.confined.subset hw)
      have hfirst := ha.trans (p.attempt_frame s a hnot') hkept
      have hsecond := ha.trans (q.attempt_frame s a hnot) (p.attempt_frame _ a hnot')
      exact ha.trans (ha.symm hfirst) hsecond

end Op

section Batches
variable {ι : Type*} {S : Store σ α L} (op : ι → Op S ε)

/-- All operations in order, each with what came of it. -/
def runAll : List ι → σ → List (ι × Except ε (List L)) × σ
  | [], s => ([], s)
  | i :: is, s =>
    let rest := runAll is ((op i).attempt s).2
    ((i, ((op i).attempt s).1) :: rest.1, rest.2)

variable {is js : List ι} {s t : σ}

theorem runAll_congr (is : List ι) (hagree : S.Agree Set.univ s t) :
    (runAll op is s).1 = (runAll op is t).1 ∧
    S.Agree Set.univ (runAll op is s).2 (runAll op is t).2 := by
  induction is generalizing s t with
  | nil => exact ⟨rfl, hagree⟩
  | cons i is ih =>
    obtain ⟨hresult, hagree'⟩ := Op.attempt_congr (Set.subset_univ (op i).reads) hagree
    obtain ⟨hresults, hagree''⟩ := ih hagree'
    exact ⟨by rw [runAll, runAll, hresult, hresults], hagree''⟩

theorem runAll_log (is : List ι) (s : σ) :
    S.log (runAll op is s).2 = S.log s ++ (runAll op is s).1.flatMap fun r => Op.news r.2 := by
  induction is generalizing s with
  | nil => exact (List.append_nil _).symm
  | cons i is ih => rw [runAll, ih, Op.attempt_log, List.flatMap_cons, List.append_assoc]

/-- **A batch of independent operations does the same in every order**: each comes to the same, and
the state after all of them is the same at every place. -/
theorem runAll_perm (hperm : is.Perm js)
    (hpair : is.Pairwise fun i j => (op i).Independent (op j)) (s : σ) :
    (runAll op is s).1.Perm (runAll op js s).1 ∧
    S.Agree Set.univ (runAll op is s).2 (runAll op js s).2 := by
  induction hperm generalizing s with
  | nil => exact ⟨.nil, .refl S _ s⟩
  | cons i _ ih =>
    obtain ⟨hresults, hagree⟩ := ih hpair.of_cons ((op i).attempt s).2
    exact ⟨hresults.cons _, hagree⟩
  | swap i j is =>
    have hji : (op j).Independent (op i) := List.rel_of_pairwise_cons hpair List.mem_cons_self
    obtain ⟨hi, hj, hagree⟩ := hji.swap s
    obtain ⟨hresults, hagree'⟩ := runAll_congr op is hagree
    refine ⟨?_, hagree'⟩
    rw [runAll, runAll, runAll, runAll, hresults, hi, hj]
    exact .swap _ _ _
  | trans hij _ ih ih' =>
    obtain ⟨hresults, hagree⟩ := ih hpair s
    have hpair' := (hij.pairwise_iff fun h => Op.Independent.symm h).mp hpair
    obtain ⟨hresults', hagree'⟩ := ih' hpair' s
    exact ⟨hresults.trans hresults', hagree.trans hagree'⟩

end Batches
end Footprint

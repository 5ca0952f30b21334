import Mathlib.Tactic

/-! # Cutting a stream into pieces

A cutter takes the first piece off a text once enough of it is there, and what arrives later does not
change where it cuts. So the pieces of a stream do not depend on how the stream was delivered. The
cutter of this module cuts at blank lines, with either line ending, and its pieces hold the
paragraphs of the text, one each.
-/

namespace Framing
set_option autoImplicit false

/-! ## Cutters -/

/-- Takes the first piece off a text and leaves the rest. -/
structure Cutter (α : Type) where
  cut : List α → Option (List α × List α)
  shorter : ∀ {s b r : List α}, cut s = some (b, r) → r.length < s.length
  stable : ∀ {s b r : List α} (t : List α), cut s = some (b, r) → cut (s ++ t) = some (b, r ++ t)

namespace Cutter
variable {α : Type} (c : Cutter α)

/-- At most `n` pieces off the text, and what is left of it. -/
def pieces : ℕ → List α → List (List α) × List α
  | 0, s => ([], s)
  | n + 1, s =>
    match c.cut s with
    | none => ([], s)
    | some (b, r) => (b :: (pieces n r).1, (pieces n r).2)

/-- All pieces: each takes something off, so there are no more of them than the text is long. -/
def drain (s : List α) : List (List α) × List α := c.pieces s.length s

variable {c} {s t b r : List α}

theorem pieces_of_none (h : c.cut s = none) (n : ℕ) : c.pieces n s = ([], s) := by
  cases n with
  | zero => rfl
  | succ n => rw [pieces, h]

theorem pieces_of_some (h : c.cut s = some (b, r)) (n : ℕ) :
    c.pieces (n + 1) s = (b :: (c.pieces n r).1, (c.pieces n r).2) := by
  rw [pieces, h]

theorem pieces_succ {n : ℕ} (h : s.length ≤ n) : c.pieces (n + 1) s = c.pieces n s := by
  induction n generalizing s with
  | zero =>
    cases hcut : c.cut s with
    | none => rw [pieces_of_none hcut, pieces_of_none hcut]
    | some p =>
      have hshorter := c.shorter (b := p.1) (r := p.2) hcut
      omega
  | succ n ih =>
    cases hcut : c.cut s with
    | none => rw [pieces_of_none hcut, pieces_of_none hcut]
    | some p =>
      have hshorter := c.shorter (b := p.1) (r := p.2) hcut
      rw [pieces_of_some hcut, pieces_of_some hcut, ih (by omega)]

/-- More rounds than the text is long find nothing more. -/
theorem pieces_eq_drain {n : ℕ} (h : s.length ≤ n) : c.pieces n s = c.drain s := by
  induction n, h using Nat.le_induction with
  | base => rfl
  | succ n hn ih => rw [pieces_succ hn, ih]

theorem drain_of_none (h : c.cut s = none) : c.drain s = ([], s) := pieces_of_none h _

theorem drain_of_some (h : c.cut s = some (b, r)) :
    c.drain s = (b :: (c.drain r).1, (c.drain r).2) := by
  have hshorter := c.shorter h
  rw [← pieces_eq_drain (Nat.le_succ s.length), pieces_of_some h, pieces_eq_drain hshorter.le]

/-- What is left has no further piece. -/
theorem cut_drain (s : List α) : c.cut (c.drain s).2 = none := by
  induction hn : s.length using Nat.strong_induction_on generalizing s with
  | _ n ih =>
    cases hcut : c.cut s with
    | none =>
      rw [drain_of_none hcut]
      exact hcut
    | some p =>
      rw [drain_of_some hcut]
      exact ih p.2.length (hn ▸ c.shorter hcut) p.2 rfl

/-- Draining a text, and then what is left of it with the next text, is draining both at once. -/
theorem drain_append (s t : List α) : c.drain (s ++ t) =
    ((c.drain s).1 ++ (c.drain ((c.drain s).2 ++ t)).1, (c.drain ((c.drain s).2 ++ t)).2) := by
  induction hn : s.length using Nat.strong_induction_on generalizing s with
  | _ n ih =>
    cases hcut : c.cut s with
    | none =>
      rw [drain_of_none hcut]
      rfl
    | some p =>
      rw [drain_of_some hcut, drain_of_some (c.stable t hcut),
        ih p.2.length (hn ▸ c.shorter hcut) p.2 rfl]
      rfl

end Cutter

/-! ## Groups of lines -/

section Groups
variable {α : Type}

/-- The groups of lines between blank lines. -/
def paragraphs (ls : List (List α)) : List (List (List α)) :=
  (ls.splitOnP (· = [])).filter (· ≠ [])

def nonblank (ls : List (List α)) : List (List α) := ls.filter (· ≠ [])

theorem paragraphs_append_blank (ls ls' : List (List α)) :
    paragraphs (ls ++ [] :: ls') = paragraphs ls ++ paragraphs ls' := by
  have hsplit := List.splitOnP_append_cons (p := fun l : List α => decide (l = [])) ls ls'
    (decide_eq_true rfl)
  rw [paragraphs, hsplit, List.filter_append]
  rfl

theorem paragraphs_of_nonblank {ls : List (List α)} (h : ∀ l ∈ ls, l ≠ []) :
    paragraphs ls = [ls].filter (· ≠ []) := by
  rw [paragraphs, List.splitOnP_eq_singleton fun l hl => decide_eq_false (h l hl)]

theorem paragraphs_nil : paragraphs ([] : List (List α)) = [] := paragraphs_of_nonblank (by simp)

theorem nonblank_append_blank (ls ls' : List (List α)) :
    nonblank (ls ++ [] :: ls') = nonblank ls ++ nonblank ls' := by
  simp [nonblank]

theorem nonblank_of_nonblank {ls : List (List α)} (h : ∀ l ∈ ls, l ≠ []) : nonblank ls = ls :=
  List.filter_eq_self.mpr fun l hl => decide_eq_true (h l hl)

end Groups

/-! ## Lines -/

section Lines
variable {α : Type} [DecidableEq α] (cr lf : α)

/-- What follows a line ending at the head. -/
def lineEnd : List α → Option (List α)
  | [] => none
  | u :: s => if u = lf then some s else if u = cr ∧ s.head? = some lf then some s.tail else none

/-- The lines of a text, of which the last has no ending. -/
def lines : List α → List (List α)
  | [] => [[]]
  | u :: s =>
    if u = lf then [] :: lines s
    else if u = cr ∧ s.head? = some lf then lines s
    else (lines s).modifyHead (u :: ·)

/-- What follows two line endings at the head. -/
def separator (s : List α) : Option (List α) := (lineEnd cr lf s).bind (lineEnd cr lf)

/-- What stands in front of the first two line endings that follow each other, and what behind. -/
def cutBlank : List α → Option (List α × List α)
  | [] => none
  | u :: s =>
    match separator cr lf (u :: s) with
    | some rest => some ([], rest)
    | none => (cutBlank s).map fun p => (u :: p.1, p.2)

variable {cr lf : α} {u : α} {s t b r : List α}

theorem lines_ne_nil (s : List α) : lines cr lf s ≠ [] := by
  induction s with
  | nil => exact List.cons_ne_nil _ _
  | cons u s ih =>
    rw [lines]
    split_ifs
    · exact List.cons_ne_nil _ _
    · exact ih
    · simpa using ih

theorem lineEnd_cases (h : lineEnd cr lf s = some r) :
    s = lf :: r ∨ (cr ≠ lf ∧ s = cr :: lf :: r) := by
  cases s with
  | nil => cases h
  | cons u s =>
    rw [lineEnd] at h
    split_ifs at h with hlf hcr
    · exact .inl (by rw [hlf, Option.some.inj h])
    · obtain ⟨rfl, hhead⟩ := hcr
      refine .inr ⟨hlf, ?_⟩
      cases s with
      | nil => cases hhead
      | cons v s => rw [Option.some.inj hhead, ← Option.some.inj h, List.tail_cons]

theorem lineEnd_shorter (h : lineEnd cr lf s = some r) : r.length < s.length := by
  rcases lineEnd_cases h with rfl | ⟨-, rfl⟩
  · exact Nat.lt_succ_self _
  · rw [List.length_cons, List.length_cons]
    omega

theorem lineEnd_append (h : lineEnd cr lf s = some r) (t : List α) :
    lineEnd cr lf (s ++ t) = some (r ++ t) := by
  rcases lineEnd_cases h with rfl | ⟨hne, rfl⟩
  · rw [List.cons_append, lineEnd, if_pos rfl]
  · rw [List.cons_append, lineEnd, if_neg hne, if_pos ⟨rfl, rfl⟩]
    rfl

theorem lineEnd_count (h : lineEnd cr lf s = some r) : s.count lf = r.count lf + 1 := by
  rcases lineEnd_cases h with rfl | ⟨hne, rfl⟩
  · rw [List.count_cons_self]
  · rw [List.count_cons_of_ne hne, List.count_cons_self]

/-- Only the beginning of a line ending can become one. -/
theorem of_lineEnd_append (hnone : lineEnd cr lf s = none) (h : lineEnd cr lf (s ++ t) = some r) :
    s = [] ∨ s = [cr] := by
  cases s with
  | nil => exact .inl rfl
  | cons u s =>
    rw [lineEnd] at hnone
    rw [List.cons_append, lineEnd] at h
    split_ifs at hnone with h1 h2
    rw [if_neg h1] at h
    split_ifs at h with h3
    cases s with
    | nil => exact .inr (by rw [h3.1])
    | cons v s => exact absurd h3 h2

theorem count_eq_zero_of_lineEnd_append (hnone : lineEnd cr lf s = none)
    (h : lineEnd cr lf (s ++ t) = some r) : s.count lf = 0 := by
  rcases of_lineEnd_append hnone h with rfl | rfl
  · rfl
  · rw [List.count_eq_zero, List.mem_singleton]
    rintro rfl
    rw [lineEnd, if_pos rfl] at hnone
    cases hnone

/-- A line ending ends with a line feed, so nothing without one completes it. -/
theorem lineEnd_append_of_not_mem (h : lf ∉ t) :
    lineEnd cr lf (s ++ t) = (lineEnd cr lf s).map (· ++ t) := by
  cases hs : lineEnd cr lf s with
  | some r => exact lineEnd_append hs t
  | none =>
    cases hst : lineEnd cr lf (s ++ t) with
    | none => rfl
    | some r =>
      have hcount := lineEnd_count hst
      rw [List.count_append, List.count_eq_zero_of_not_mem h,
        count_eq_zero_of_lineEnd_append hs hst] at hcount
      omega

theorem lines_of_lineEnd (h : lineEnd cr lf s = some r) : lines cr lf s = [] :: lines cr lf r := by
  rcases lineEnd_cases h with rfl | ⟨hne, rfl⟩
  · rw [lines, if_pos rfl]
  · rw [lines, if_neg hne, if_pos ⟨rfl, rfl⟩, lines, if_pos rfl]

theorem separator_shorter (h : separator cr lf s = some r) : r.length < s.length := by
  obtain ⟨m, hm, hr⟩ := Option.bind_eq_some_iff.mp h
  exact (lineEnd_shorter hr).trans (lineEnd_shorter hm)

theorem separator_append (h : separator cr lf s = some r) (t : List α) :
    separator cr lf (s ++ t) = some (r ++ t) := by
  obtain ⟨m, hm, hr⟩ := Option.bind_eq_some_iff.mp h
  rw [separator, lineEnd_append hm, Option.bind_some, lineEnd_append hr]

theorem separator_append_of_not_mem (h : lf ∉ t) :
    separator cr lf (s ++ t) = (separator cr lf s).map (· ++ t) := by
  rw [separator, lineEnd_append_of_not_mem h, separator]
  cases lineEnd cr lf s with
  | none => rfl
  | some r => exact lineEnd_append_of_not_mem h

/-! ## Cutting at blank lines -/

theorem cutBlank_of_separator (h : separator cr lf s = some r) : cutBlank cr lf s = some ([], r) := by
  cases s with
  | nil => cases h
  | cons u s => rw [cutBlank, h]

theorem cutBlank_cons (h : separator cr lf (u :: s) = none) :
    cutBlank cr lf (u :: s) = (cutBlank cr lf s).map fun p => (u :: p.1, p.2) := by
  rw [cutBlank, h]

/-- A cut is made at the head, or further on. -/
theorem cutBlank_cases (h : cutBlank cr lf (u :: s) = some (b, r)) :
    (separator cr lf (u :: s) = some r ∧ b = []) ∨
    (separator cr lf (u :: s) = none ∧ ∃ b', b = u :: b' ∧ cutBlank cr lf s = some (b', r)) := by
  cases hsep : separator cr lf (u :: s) with
  | some rest =>
    rw [cutBlank_of_separator hsep] at h
    obtain ⟨rfl, rfl⟩ := Prod.mk.inj (Option.some.inj h)
    exact .inl ⟨rfl, rfl⟩
  | none =>
    rw [cutBlank_cons hsep] at h
    obtain ⟨p, hp, heq⟩ := Option.map_eq_some_iff.mp h
    obtain ⟨rfl, rfl⟩ := Prod.mk.inj heq
    exact .inr ⟨rfl, p.1, rfl, hp⟩

theorem cutBlank_shorter (h : cutBlank cr lf s = some (b, r)) : r.length < s.length := by
  induction s generalizing b with
  | nil => cases h
  | cons u s ih =>
    obtain ⟨hsep, -⟩ | ⟨-, b', -, hcut⟩ := cutBlank_cases h
    · exact separator_shorter hsep
    · exact (ih hcut).trans (Nat.lt_succ_self _)

theorem cutBlank_count (h : cutBlank cr lf s = some (b, r)) : 2 ≤ s.count lf := by
  induction s generalizing b with
  | nil => cases h
  | cons u s ih =>
    obtain ⟨hsep, -⟩ | ⟨-, b', -, hcut⟩ := cutBlank_cases h
    · obtain ⟨m, hm, hr⟩ := Option.bind_eq_some_iff.mp hsep
      rw [lineEnd_count hm, lineEnd_count hr]
      omega
    · exact (ih hcut).trans List.count_le_count_cons

/-- A separator further on ends later, so where it is complete an earlier one would be as well. -/
theorem separator_append_eq_none (hnone : separator cr lf (u :: s) = none)
    (hcut : cutBlank cr lf s = some (b, r)) (t : List α) : separator cr lf (u :: (s ++ t)) = none := by
  rw [← List.cons_append]
  have htwo := cutBlank_count hcut
  have hcons : s.count lf ≤ (u :: s).count lf := List.count_le_count_cons
  by_contra hsome
  obtain ⟨rest, hrest⟩ := Option.ne_none_iff_exists'.mp hsome
  obtain ⟨m, hm, hr⟩ := Option.bind_eq_some_iff.mp hrest
  cases hfirst : lineEnd cr lf (u :: s) with
  | none =>
    have hzero := count_eq_zero_of_lineEnd_append hfirst hm
    omega
  | some m' =>
    -- The second line ending begins in the text and ends behind it.
    obtain rfl : m' ++ t = m := Option.some.inj ((lineEnd_append hfirst t).symm.trans hm)
    rw [separator, hfirst, Option.bind_some] at hnone
    have hzero := count_eq_zero_of_lineEnd_append hnone hr
    have hone := lineEnd_count hfirst
    omega

theorem cutBlank_append (h : cutBlank cr lf s = some (b, r)) (t : List α) :
    cutBlank cr lf (s ++ t) = some (b, r ++ t) := by
  induction s generalizing b with
  | nil => cases h
  | cons u s ih =>
    obtain ⟨hsep, rfl⟩ | ⟨hsep, b', rfl, hcut⟩ := cutBlank_cases h
    · exact cutBlank_of_separator (separator_append hsep t)
    · rw [List.cons_append, cutBlank_cons (separator_append_eq_none hsep hcut t), ih hcut]
      rfl

theorem cutBlank_append_of_not_mem (hnone : cutBlank cr lf s = none) (h : lf ∉ t) :
    cutBlank cr lf (s ++ t) = none := by
  induction s with
  | nil =>
    cases hcut : cutBlank cr lf t with
    | none => exact hcut
    | some p =>
      have htwo := cutBlank_count hcut
      rw [List.count_eq_zero_of_not_mem h] at htwo
      omega
  | cons u s ih =>
    cases hsep : separator cr lf (u :: s) with
    | some rest =>
      rw [cutBlank_of_separator hsep] at hnone
      cases hnone
    | none =>
      rw [cutBlank_cons hsep, Option.map_eq_none_iff] at hnone
      have hsep' : separator cr lf (u :: (s ++ t)) = none := by
        rw [← List.cons_append, separator_append_of_not_mem h, hsep]
        rfl
      rw [List.cons_append, cutBlank_cons hsep', ih hnone]
      rfl

variable (cr lf) in
def blankLine : Cutter α := ⟨cutBlank cr lf, cutBlank_shorter, fun t h => cutBlank_append h t⟩

/-! ## Paragraphs -/

theorem lines_cons (hlf : u ≠ lf) (hcr : ¬ (u = cr ∧ s.head? = some lf)) :
    lines cr lf (u :: s) = (lines cr lf s).modifyHead (u :: ·) := by
  rw [lines, if_neg hlf, if_neg hcr]

theorem head?_eq_of_cutBlank (h : cutBlank cr lf s = some (b, r)) (hb : b ≠ []) :
    s.head? = b.head? := by
  cases s with
  | nil => cases h
  | cons u s =>
    obtain ⟨-, rfl⟩ | ⟨-, b', rfl, -⟩ := cutBlank_cases h
    · exact absurd rfl hb
    · rfl

theorem separator_of_cutBlank_nil (h : cutBlank cr lf s = some ([], r)) :
    separator cr lf s = some r := by
  cases s with
  | nil => cases h
  | cons u s =>
    obtain ⟨hsep, -⟩ | ⟨-, b', hb, -⟩ := cutBlank_cases h
    · exact hsep
    · cases hb

theorem separator_crlf (hlf : u ≠ lf) (hcr : u = cr ∧ s.head? = some lf) :
    separator cr lf (u :: s) = separator cr lf s := by
  cases s with
  | nil => cases hcr.2
  | cons v s =>
    obtain rfl := Option.some.inj hcr.2
    rw [separator, separator, lineEnd, if_neg hlf, if_pos hcr, lineEnd, if_pos rfl]
    rfl

theorem lines_of_cutBlank (h : cutBlank cr lf s = some (b, r)) :
    lines cr lf s = lines cr lf b ++ [] :: lines cr lf r := by
  induction s generalizing b with
  | nil => cases h
  | cons u s ih =>
    obtain ⟨hsep, rfl⟩ | ⟨hsep, b, rfl, hcut⟩ := cutBlank_cases h
    · obtain ⟨m, hm, hr⟩ := Option.bind_eq_some_iff.mp hsep
      rw [lines_of_lineEnd hm, lines_of_lineEnd hr]
      rfl
    · have hlines := ih hcut
      by_cases hlf : u = lf
      · rw [lines, if_pos hlf, lines, if_pos hlf, hlines]
        rfl
      · by_cases hcr : u = cr ∧ s.head? = some lf
        · -- The carriage return is part of a line ending, which stands in front of the cut.
          have hne : b ≠ [] := by
            rintro rfl
            rw [separator_crlf hlf hcr, separator_of_cutBlank_nil hcut] at hsep
            cases hsep
          have hhead := head?_eq_of_cutBlank hcut hne
          rw [lines, if_neg hlf, if_pos hcr, lines, if_neg hlf,
            if_pos ⟨hcr.1, hhead.symm.trans hcr.2⟩, hlines]
        · have hcr' : ¬ (u = cr ∧ b.head? = some lf) := by
            rintro ⟨hu, hhead⟩
            have hne : b ≠ [] := by
              rintro rfl
              cases hhead
            exact hcr ⟨hu, (head?_eq_of_cutBlank hcut hne).trans hhead⟩
          rw [lines_cons hlf hcr, lines_cons hlf hcr', hlines]
          cases hb : lines cr lf b with
          | nil => exact absurd hb (lines_ne_nil b)
          | cons l ls => rfl

/-- What is in front of a cut ends where the separator begins. -/
theorem eq_append_of_cutBlank (h : cutBlank cr lf s = some (b, r)) :
    ∃ x, s = b ++ x ∧ separator cr lf x = some r := by
  induction s generalizing b with
  | nil => cases h
  | cons u s ih =>
    obtain ⟨hsep, rfl⟩ | ⟨-, b', rfl, hcut⟩ := cutBlank_cases h
    · exact ⟨u :: s, rfl, hsep⟩
    · obtain ⟨x, hx, hxr⟩ := ih hcut
      exact ⟨x, congrArg (u :: ·) hx, hxr⟩

/-- A piece cannot be cut again. -/
theorem cutBlank_piece (h : cutBlank cr lf s = some (b, r)) : cutBlank cr lf b = none := by
  obtain ⟨x, rfl, -⟩ := eq_append_of_cutBlank h
  cases hb : cutBlank cr lf b with
  | none => rfl
  | some p =>
    obtain ⟨b', r'⟩ := p
    obtain ⟨rfl, -⟩ := Prod.mk.inj (Option.some.inj ((cutBlank_append hb x).symm.trans h))
    obtain ⟨y, hy, hyr⟩ := eq_append_of_cutBlank hb
    obtain rfl : y = [] := List.self_eq_append_right.mp hy
    cases hyr

theorem eq_nil_of_lines (hnone : lineEnd cr lf s = none) (h : (lines cr lf s).head? = some []) :
    s = [] := by
  cases s with
  | nil => rfl
  | cons u s =>
    rw [lineEnd] at hnone
    split_ifs at hnone with h1 h2
    rw [lines_cons h1 h2] at h
    cases hs : lines cr lf s with
    | nil => exact absurd hs (lines_ne_nil s)
    | cons l ls =>
      rw [hs] at h
      cases h

/-- Where nothing can be cut, only the first and the last line may be blank. -/
theorem lines_of_cutBlank_none (h : cutBlank cr lf s = none) :
    ∃ l ms t, lines cr lf s = l :: (ms ++ t) ∧ (∀ m ∈ ms, m ≠ []) ∧ (t = [] ∨ t = [[]]) := by
  induction s with
  | nil => exact ⟨[], [], [], rfl, by simp, .inl rfl⟩
  | cons u s ih =>
    cases hsep : separator cr lf (u :: s) with
    | some rest =>
      rw [cutBlank_of_separator hsep] at h
      cases h
    | none =>
      rw [cutBlank_cons hsep, Option.map_eq_none_iff] at h
      obtain ⟨l, ms, t, hlines, hms, ht⟩ := ih h
      by_cases hlf : u = lf
      · rw [lines, if_pos hlf, hlines]
        rw [separator, lineEnd, if_pos hlf, Option.bind_some] at hsep
        by_cases hl : l = []
        · obtain rfl := eq_nil_of_lines hsep (by rw [hlines, hl, List.head?_cons])
          exact ⟨[], [], [[]], by rw [← hlines]; rfl, by simp, .inr rfl⟩
        · exact ⟨[], l :: ms, t, rfl, List.forall_mem_cons.mpr ⟨hl, hms⟩, ht⟩
      · by_cases hcr : u = cr ∧ s.head? = some lf
        · rw [lines, if_neg hlf, if_pos hcr]
          exact ⟨l, ms, t, hlines, hms, ht⟩
        · rw [lines_cons hlf hcr, hlines]
          exact ⟨u :: l, ms, t, rfl, hms, ht⟩

/-- A text that cannot be cut is one paragraph at most. -/
theorem paragraphs_of_cutBlank_none (h : cutBlank cr lf s = none) :
    paragraphs (lines cr lf s) = [nonblank (lines cr lf s)].filter (· ≠ []) := by
  obtain ⟨l, ms, t, hlines, hms, ht⟩ := lines_of_cutBlank_none h
  have hfront : paragraphs (l :: ms) = [nonblank (l :: ms)].filter (· ≠ []) := by
    by_cases hl : l = []
    · subst hl
      have hp := paragraphs_append_blank [] ms
      have hn := nonblank_append_blank [] ms
      rw [List.nil_append] at hp hn
      rw [hp, hn, paragraphs_nil, paragraphs_of_nonblank hms, nonblank_of_nonblank hms]
      rfl
    · have hall : ∀ m ∈ l :: ms, m ≠ [] := List.forall_mem_cons.mpr ⟨hl, hms⟩
      rw [paragraphs_of_nonblank hall, nonblank_of_nonblank hall]
  rw [hlines, ← List.cons_append]
  rcases ht with rfl | rfl
  · rw [List.append_nil, hfront]
  · rw [paragraphs_append_blank, nonblank_append_blank, hfront, paragraphs_nil, List.append_nil]
    rw [nonblank, nonblank, List.filter_nil, List.append_nil]

variable (cr lf) in
/-- **The pieces are the paragraphs**, and what is left over is the last one. -/
theorem paragraphs_lines (s : List α) : paragraphs (lines cr lf s) =
    ((((blankLine cr lf).drain s).1 ++ [((blankLine cr lf).drain s).2]).map fun b =>
      nonblank (lines cr lf b)).filter (· ≠ []) := by
  induction hn : s.length using Nat.strong_induction_on generalizing s with
  | _ n ih =>
    cases hcut : cutBlank cr lf s with
    | none =>
      rw [Cutter.drain_of_none hcut]
      exact paragraphs_of_cutBlank_none hcut
    | some p =>
      rw [Cutter.drain_of_some hcut, lines_of_cutBlank hcut, paragraphs_append_blank,
        ih p.2.length (hn ▸ cutBlank_shorter hcut) p.2 rfl,
        paragraphs_of_cutBlank_none (cutBlank_piece hcut), ← List.filter_append]
      rfl

end Lines
end Framing

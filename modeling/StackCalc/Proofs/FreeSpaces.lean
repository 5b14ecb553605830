import StackCalc.Proofs.LineBreaks

/-
  The tokens of a line, position by position.

  A space is free if the text before it has closed all that
  it opened, which is a matter of counting. The tokens of a
  line are the longest runs of positions that are not free,
  from left to right, so that nothing but free spaces is
  left out and nothing is told twice.

  Main declarations:
    * `Token.IsFree`
    * `Token.IsRun`
    * `Token.IsRun.eq_of_common`
    * `Token.Partition`
    * `Token.partition_placed`
    * `Token.tokenize_longest_runs`
-/

------------------------------------------------------------
-- Free Spaces
------------------------------------------------------------

namespace StackCalc

namespace Nesting

/- A text is whole if none of its spaces stands outside. -/
theorem keepsWhole_iff
    {n : Nesting}
    {t : Text} :
    n.KeepsWhole t ↔
      ∀ i, t[i]? = some ' ' →
        (n.afterAll (t.take i)).isOutside = false := by
  induction t generalizing n with
  | nil =>
      simp [KeepsWhole]
  | cons c t ih =>
      rw [KeepsWhole, ih]
      constructor
      · rintro ⟨hFirst, hRest⟩ i hSpace
        cases i with
        | zero =>
            have hc : c = ' ' := by
              simpa using hSpace
            simpa [hc, afterAll] using hFirst
        | succ i =>
            exact hRest i (by simpa using hSpace)
      · intro h
        refine ⟨?_, ?_⟩
        · rintro ⟨rfl, hOutside⟩
          have hInside := h 0 rfl
          rw [List.take_zero, afterAll, List.foldl_nil,
            hOutside] at hInside
          exact Bool.noConfusion hInside
        · intro i hSpace
          exact h (i + 1) (by simpa using hSpace)

end Nesting

namespace Token

/-
  A position of a line at which a space stands, after a
  text that has no more opening than closing brackets of
  either kind and an even number of quotes.
-/
structure IsFree
    (t : Text)
    (i : Nat) : Prop where
  space :
    t[i]? = some ' '
  square :
    (t.take i).count '[' ≤ (t.take i).count ']'
  curly :
    (t.take i).count '{' ≤ (t.take i).count '}'
  quotes :
    (t.take i).count '"' % 2 = 0

/- The counts say that nothing is open. -/
theorem isFree_iff
    {t : Text}
    {i : Nat} :
    IsFree t i ↔
      t[i]? = some ' ' ∧
        (Nesting.start.afterAll (t.take i)).isOutside =
          true := by
  have hOutside (u : Text) :
      (Nesting.start.afterAll u).isOutside = true ↔
        u.count '[' ≤ u.count ']' ∧
          u.count '{' ≤ u.count '}' ∧
          u.count '"' % 2 = 0 := by
    simp only [Nesting.isOutside, Nesting.square_afterAll,
      Nesting.curly_afterAll, Nesting.quoted_afterAll,
      Nesting.start, Bool.and_eq_true, decide_eq_true_eq,
      Bool.false_xor, Bool.not_eq_true',
      beq_eq_false_iff_ne]
    omega
  rw [hOutside]
  constructor
  · intro h
    exact ⟨h.space, h.square, h.curly, h.quotes⟩
  · rintro ⟨hSpace, hSquare, hCurly, hQuotes⟩
    exact ⟨hSpace, hSquare, hCurly, hQuotes⟩

/-
  Whether a space is free after some text depends on that
  text only through the nesting it leaves.
-/
theorem isFree_append_iff
    {before t : Text}
    {i : Nat} :
    IsFree (before ++ t) (before.length + i) ↔
      t[i]? = some ' ' ∧
        ((Nesting.start.afterAll before).afterAll
          (t.take i)).isOutside = true := by
  rw [isFree_iff, List.getElem?_append_right (by omega),
    List.take_length_add_append, Nesting.afterAll_append,
    Nat.add_sub_cancel_left]

/- A text without free spaces has none inside a line. -/
theorem not_isFree_of_keepsWhole
    {before p rest : Text}
    {i : Nat}
    (h : (Nesting.start.afterAll before).KeepsWhole p)
    (hStart : before.length ≤ i)
    (hEnd : i < before.length + p.length) :
    ¬ IsFree (before ++ (p ++ rest)) i := by
  obtain ⟨j, rfl⟩ := Nat.exists_eq_add_of_le hStart
  have hj : j < p.length := by
    omega
  rw [isFree_append_iff, List.getElem?_append_left hj,
    List.take_append_of_le_length (Nat.le_of_lt hj)]
  rintro ⟨hSpace, hOutside⟩
  rw [Nesting.keepsWhole_iff.1 h j hSpace] at hOutside
  exact Bool.noConfusion hOutside

end Token

end StackCalc

------------------------------------------------------------
-- Runs
------------------------------------------------------------

namespace StackCalc

namespace Token

/-
  A token that spans a longest run of positions without a
  free one among them.
-/
structure IsRun
    (line : Text)
    (t : Token) : Prop where
  nonempty :
    t.pos < t.stop
  inside :
    t.stop ≤ line.length
  text :
    t.text = (line.drop t.pos).take (t.stop - t.pos)
  unbroken :
    ∀ i, t.pos ≤ i → i < t.stop → ¬ IsFree line i
  before :
    ∀ i, i + 1 = t.pos → IsFree line i
  after :
    t.stop < line.length → IsFree line t.stop

section Runs

variable
  {line : Text}
  {t u : Token}
  {i : Nat}

/- No run starts before another that it reaches. -/
theorem IsRun.pos_le_pos
    (ht : IsRun line t)
    (hu : IsRun line u)
    (htLt : i < t.stop)
    (huLe : u.pos ≤ i) :
    u.pos ≤ t.pos := by
  rcases Nat.lt_or_ge t.pos u.pos with hLt | hLe
  · have hFree := hu.before (u.pos - 1) (by omega)
    exact absurd hFree
      (ht.unbroken (u.pos - 1) (by omega) (by omega))
  · exact hLe

/- No run that starts before another ends goes on longer. -/
theorem IsRun.stop_le_stop
    (ht : IsRun line t)
    (hu : IsRun line u)
    (htLe : t.pos ≤ i)
    (huLt : i < u.stop) :
    t.stop ≤ u.stop := by
  rcases Nat.lt_or_ge u.stop t.stop with hLt | hLe
  · have hInside : u.stop < line.length :=
      Nat.lt_of_lt_of_le hLt ht.inside
    have hFree := hu.after hInside
    exact absurd hFree (ht.unbroken u.stop (by omega) hLt)
  · exact hLe

/- Runs that share a position are the same. -/
theorem IsRun.eq_of_common
    (ht : IsRun line t)
    (hu : IsRun line u)
    (htLe : t.pos ≤ i)
    (htLt : i < t.stop)
    (huLe : u.pos ≤ i)
    (huLt : i < u.stop) :
    t = u := by
  have hPos : t.pos = u.pos :=
    Nat.le_antisymm (hu.pos_le_pos ht huLt htLe)
      (ht.pos_le_pos hu htLt huLe)
  have hStop : t.stop = u.stop :=
    Nat.le_antisymm (ht.stop_le_stop hu htLe huLt)
      (hu.stop_le_stop ht huLe htLt)
  have hText : t.text = u.text := by
    rw [ht.text, hu.text, hPos, hStop]
  rcases t with ⟨text, pos⟩
  rcases u with ⟨text', pos'⟩
  rw [Token.mk.injEq]
  exact ⟨hText, hPos⟩

end Runs

/-
  Tokens that take up a line from a position on: they are
  runs, they stand apart in order, and what is in none of
  them is free.
-/
structure Partition
    (line : Text)
    (start : Nat)
    (ts : List Token) : Prop where
  runs :
    ∀ t ∈ ts, IsRun line t
  later :
    ∀ t ∈ ts, start ≤ t.pos
  apart :
    ts.Pairwise fun t u => t.stop < u.pos
  covers :
    ∀ i, start ≤ i → i < line.length → ¬ IsFree line i →
      ∃ t ∈ ts, t.pos ≤ i ∧ i < t.stop

/-
  A piece between free spaces is put before the tokens that
  take up the rest of the line, unless it is empty.
-/
theorem Partition.placed_cons
    {before p rest : Text}
    {ps : List Text}
    (hWhole : (Nesting.start.afterAll before).KeepsWhole p)
    (hBefore :
      ∀ i, i + 1 = before.length →
        IsFree (before ++ (p ++ rest)) i)
    (hAfter :
      rest ≠ [] →
        IsFree (before ++ (p ++ rest))
          (before.length + p.length))
    (h :
      Partition (before ++ (p ++ rest))
        (before.length + p.length + 1)
        (placed (before.length + p.length + 1) ps)) :
    Partition (before ++ (p ++ rest)) before.length
      (placed before.length (p :: ps)) := by
  have hInside :
      before.length + p.length ≤
        (before ++ (p ++ rest)).length := by
    simp only [List.length_append]
    omega
  have hUnbroken :
      ∀ i, before.length ≤ i →
        i < before.length + p.length →
          ¬ IsFree (before ++ (p ++ rest)) i :=
    fun i => not_isFree_of_keepsWhole hWhole
  have hNext :
      before.length + p.length <
          (before ++ (p ++ rest)).length →
        IsFree (before ++ (p ++ rest))
          (before.length + p.length) := by
    intro hLt
    apply hAfter
    rintro rfl
    simp at hLt
  rw [placed]
  cases p with
  | nil =>
      refine ⟨h.runs, ?_, h.apart, ?_⟩
      · intro t ht
        exact Nat.le_trans (by omega) (h.later t ht)
      · intro i hStart hEnd hNot
        refine h.covers i ?_ hEnd hNot
        rcases Nat.eq_or_lt_of_le hStart with rfl | hLt
        · exact absurd (hNext hEnd) hNot
        · exact hLt
  | cons c p =>
      have hRun :
          IsRun (before ++ (c :: p ++ rest))
            ⟨c :: p, before.length⟩ := by
        refine ⟨?_, hInside, ?_, hUnbroken, hBefore, hNext⟩
        · simp [stop]
        · simp [stop]
      refine ⟨?_, ?_, ?_, ?_⟩
      · exact List.forall_mem_cons.2 ⟨hRun, h.runs⟩
      · refine List.forall_mem_cons.2 ⟨Nat.le_refl _, ?_⟩
        intro t ht
        exact Nat.le_trans (by omega) (h.later t ht)
      · exact List.pairwise_cons.2 ⟨h.later, h.apart⟩
      · intro i hStart hEnd hNot
        rcases Nat.lt_trichotomy i
            (before.length + (c :: p).length) with
          hLt | rfl | hGt
        · exact ⟨_, List.mem_cons_self, hStart, hLt⟩
        · exact absurd (hNext hEnd) hNot
        · rcases h.covers i hGt hEnd hNot with
            ⟨t, ht, hIn⟩
          exact ⟨t, List.mem_cons_of_mem _ ht, hIn⟩

end Token

end StackCalc

------------------------------------------------------------
-- Tokens
------------------------------------------------------------

namespace StackCalc

namespace Token

/-
  The first piece of a text has no free space. It is the
  whole text, or a free space stands after it and the other
  pieces are those of what follows.
-/
theorem pieces_cases
    {n : Nesting}
    {t p : Text}
    {ps : List Text}
    (h : pieces n t = (p, ps)) :
    n.KeepsWhole p ∧
      ((t = p ∧ ps = []) ∨
        ∃ rest q qs,
          t = p ++ ' ' :: rest ∧ ps = q :: qs ∧
            (n.afterAll p).isOutside = true ∧
            pieces (n.afterAll p) rest = (q, qs)) := by
  induction t generalizing n p with
  | nil =>
      cases h
      exact ⟨trivial, .inl ⟨rfl, rfl⟩⟩
  | cons c t ih =>
      rw [pieces] at h
      by_cases hFree : c = ' ' ∧ n.isOutside
      · rw [if_pos hFree] at h
        cases h
        rcases hFree with ⟨rfl, hOutside⟩
        exact ⟨trivial,
          .inr ⟨t, _, _, rfl, rfl, hOutside, rfl⟩⟩
      · rw [if_neg hFree] at h
        cases h
        rcases ih rfl with ⟨hWhole, hEnd⟩
        refine ⟨⟨hFree, hWhole⟩, ?_⟩
        rcases hEnd with
          ⟨hText, hNil⟩ | ⟨rest, q, qs, hText, hCons, hRest⟩
        · exact .inl ⟨congrArg (c :: ·) hText, hNil⟩
        · exact .inr ⟨rest, q, qs,
            congrArg (c :: ·) hText, hCons, hRest⟩

/-
  The pieces of what stands after some text take up the
  line from there, if the text is empty or ends in a free
  space.
-/
theorem partition_placed
    {before t p : Text}
    {ps : List Text}
    (hPieces :
      pieces (Nesting.start.afterAll before) t = (p, ps))
    (hBefore :
      ∀ i, i + 1 = before.length →
        IsFree (before ++ t) i) :
    Partition (before ++ t) before.length
      (placed before.length (p :: ps)) := by
  induction ps generalizing before t p with
  | nil =>
      rcases pieces_cases hPieces with ⟨hWhole, hEnd⟩
      rcases hEnd with ⟨rfl, -⟩ | ⟨_, _, _, -, hCons, -⟩
      · have hLine : before ++ t = before ++ (t ++ []) := by
          rw [List.append_nil]
        rw [hLine] at hBefore ⊢
        refine Partition.placed_cons hWhole hBefore
          (fun hNe => absurd rfl hNe) ⟨?_, ?_, ?_, ?_⟩
        · simp [placed]
        · simp [placed]
        · simp [placed]
        · intro i hStart hEnd
          simp only [List.length_append,
            List.length_nil] at hEnd
          omega
      · simp at hCons
  | cons q qs ih =>
      rcases pieces_cases hPieces with ⟨hWhole, hEnd⟩
      rcases hEnd with
        ⟨-, hNil⟩ |
          ⟨rest, _, _, rfl, hCons, hOutside, hRest⟩
      · simp at hNil
      · rcases List.cons.inj hCons with ⟨rfl, rfl⟩
        -- The free space belongs to what was read before.
        have hLine :
            before ++ (p ++ ' ' :: rest) =
              (before ++ p ++ [' ']) ++ rest := by
          simp
        have hFree :
            IsFree (before ++ (p ++ ' ' :: rest))
              (before.length + p.length) := by
          rw [isFree_append_iff]
          simp [hOutside]
        have hNesting :
            Nesting.start.afterAll (before ++ p ++ [' ']) =
              (Nesting.start.afterAll before).afterAll p := by
          rw [Nesting.afterAll_append,
            Nesting.afterAll_append]
          rfl
        have hLater :
            Partition (before ++ p ++ [' '] ++ rest)
              (before ++ p ++ [' ']).length
              (placed (before ++ p ++ [' ']).length
                (q :: qs)) := by
          apply ih
          · rw [hNesting]
            exact hRest
          · intro i hi
            have hEnd : i = before.length + p.length := by
              simp only [List.length_append,
                List.length_singleton] at hi
              omega
            rw [← hLine, hEnd]
            exact hFree
        rw [← hLine] at hLater
        refine Partition.placed_cons hWhole hBefore
          (fun _ => hFree) ?_
        simpa [Nat.add_assoc] using hLater

/-
  The tokens of a line are the longest runs without a free
  space, from left to right and with at least one position
  between neighbours. A position is in none of them just if
  it is free.
-/
theorem tokenize_longest_runs
    (line : Text) :
    (∀ t, t ∈ tokenize line ↔ IsRun line t) ∧
      (tokenize line).Pairwise
        (fun t u => t.stop < u.pos) ∧
      ∀ i, i < line.length →
        (IsFree line i ↔
          ∀ t ∈ tokenize line,
            ¬ (t.pos ≤ i ∧ i < t.stop)) := by
  have hPartition :
      Partition ([] ++ line) ([] : Text).length
        (tokenize line) :=
    partition_placed rfl (by simp)
  rw [List.nil_append, List.length_nil] at hPartition
  refine ⟨?_, hPartition.apart, ?_⟩
  · intro t
    refine ⟨hPartition.runs t, ?_⟩
    intro hRun
    have hNot : ¬ IsFree line t.pos :=
      hRun.unbroken t.pos (Nat.le_refl _) hRun.nonempty
    have hLt : t.pos < line.length :=
      Nat.lt_of_lt_of_le hRun.nonempty hRun.inside
    rcases hPartition.covers t.pos (Nat.zero_le _) hLt hNot
      with ⟨u, hu, hLe, hStop⟩
    have hSame : t = u :=
      hRun.eq_of_common (hPartition.runs u hu)
        (Nat.le_refl _) hRun.nonempty hLe hStop
    exact hSame ▸ hu
  · intro i hi
    constructor
    · intro hFree t ht hIn
      have hRun := hPartition.runs t ht
      exact hRun.unbroken i hIn.1 hIn.2 hFree
    · intro hNone
      rcases Classical.em (IsFree line i) with hFree | hNot
      · exact hFree
      · rcases hPartition.covers i (Nat.zero_le _) hi hNot
          with ⟨t, ht, hIn⟩
        exact absurd hIn (hNone t ht)

/-
  A bracket that is closed in a string leaves fewer than no
  brackets open, so that the next one does not hold its
  text together.
-/
theorem tokenize_longest_runs_closed :
    let line := "\"]\" [1 2".toList
    IsRun line ⟨"[1".toList, 4⟩ ∧
      6 < line.length ∧ IsFree line 6 := by
  intro line
  rcases tokenize_longest_runs line with
    ⟨hRuns, -, hFree⟩
  have hEnd : 6 < line.length := by
    decide
  refine ⟨?_, hEnd, ?_⟩
  · exact (hRuns _).1 (by decide)
  · exact (hFree 6 hEnd).2 (by decide)

end Token

end StackCalc

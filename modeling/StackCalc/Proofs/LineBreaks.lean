import StackCalc.Proofs.Failures
import StackCalc.Proofs.Splitting

/-
  Where a line may be broken.

  What a text opens and closes can be counted, in whatever
  order it does so. A balanced line leaves nothing open, so
  that a space after it is free, and what stands after the
  space is split as a line of its own. A program therefore
  does not care whether such a line and the next are two
  lines, one line, or two programs of a session.

  Main declarations:
    * `Text.IsBalanced`
    * `Nesting.afterAll_of_isBalanced`
    * `Token.split_append_space`
    * `Run.program_append`
    * `Session.answer_joined_lines`
-/

------------------------------------------------------------
-- Counting
------------------------------------------------------------

namespace StackCalc

namespace Nesting

theorem afterAll_cons
    (n : Nesting)
    (c : Char)
    (t : Text) :
    n.afterAll (c :: t) = (n.after c).afterAll t :=
  rfl

/- Square brackets are counted, opening and closing. -/
theorem square_afterAll
    (n : Nesting)
    (t : Text) :
    (n.afterAll t).square =
      n.square + t.count '[' - t.count ']' := by
  induction t generalizing n with
  | nil =>
      simp [afterAll]
  | cons c t ih =>
      rw [afterAll_cons, ih]
      grind [after]

/- So are braces. -/
theorem curly_afterAll
    (n : Nesting)
    (t : Text) :
    (n.afterAll t).curly =
      n.curly + t.count '{' - t.count '}' := by
  induction t generalizing n with
  | nil =>
      simp [afterAll]
  | cons c t ih =>
      rw [afterAll_cons, ih]
      grind [after]

/- Of the quotes only the parity matters. -/
theorem quoted_afterAll
    (n : Nesting)
    (t : Text) :
    (n.afterAll t).quoted =
      (n.quoted ^^ (t.count '"' % 2 == 1)) := by
  induction t generalizing n with
  | nil =>
      simp [afterAll]
  | cons c t ih =>
      rw [afterAll_cons, ih]
      by_cases hQuote : c = '"'
      · subst hQuote
        have hFlip : (n.after '"').quoted = !n.quoted := rfl
        rw [hFlip, List.count_cons_self]
        grind
      · have hKeep : (n.after c).quoted = n.quoted := by
          grind [after]
        rw [hKeep, List.count_cons_of_ne hQuote]

end Nesting

namespace Text

/-
  A text with as many closing as opening brackets of either
  kind and with an even number of quotes.
-/
structure IsBalanced (t : Text) : Prop where
  square : t.count '[' = t.count ']'
  curly : t.count '{' = t.count '}'
  quotes : t.count '"' % 2 = 0

end Text

namespace Nesting

/- A balanced text leaves the nesting as it was. -/
theorem afterAll_of_isBalanced
    {t : Text}
    (h : t.IsBalanced)
    (n : Nesting) :
    n.afterAll t = n := by
  have hSquare : (n.afterAll t).square = n.square := by
    rw [square_afterAll, h.square]
    omega
  have hCurly : (n.afterAll t).curly = n.curly := by
    rw [curly_afterAll, h.curly]
    omega
  have hQuoted : (n.afterAll t).quoted = n.quoted := by
    simp [quoted_afterAll, h.quotes]
  revert hSquare hCurly hQuoted
  rcases n.afterAll t with ⟨square, curly, quoted⟩
  rcases n with ⟨square', curly', quoted'⟩
  rintro rfl rfl rfl
  rfl

end Nesting

end StackCalc

------------------------------------------------------------
-- Splitting At A Space
------------------------------------------------------------

namespace StackCalc

namespace Token

/-
  At a free space the pieces of a text end. What stands
  after the space has pieces of its own, which depend on
  the text before only through the nesting it leaves.
-/
theorem pieces_append_space
    {n : Nesting}
    {t : Text}
    (h : (n.afterAll t).isOutside = true)
    (rest : Text) :
    pieces n (t ++ ' ' :: rest) =
      ((pieces n t).1,
        (pieces n t).2 ++
          (pieces (n.afterAll t) rest).1 ::
            (pieces (n.afterAll t) rest).2) := by
  induction t generalizing n with
  | nil =>
      have hOutside : n.isOutside = true := h
      simp [pieces, hOutside, Nesting.afterAll]
  | cons c t ih =>
      rw [List.cons_append, pieces, pieces]
      by_cases hFree : c = ' ' ∧ n.isOutside
      · have hAfter : n.after c = n := by
          rw [hFree.1]
          rfl
        have hSame : n.afterAll (c :: t) = n.afterAll t := by
          rw [Nesting.afterAll_cons, hAfter]
        rw [hSame] at h ⊢
        rw [if_pos hFree, if_pos hFree, ih h]
        rfl
      · rw [if_neg hFree, if_neg hFree, ih h]
        rfl

/- The tokens of a line are its pieces that are not empty. -/
theorem split_eq_filter
    (line : Text) :
    split line =
      ((pieces .start line).1 :: (pieces .start line).2).filter
        fun p => !p.isEmpty :=
  map_text_placed 0 _

/-
  The tokens of a balanced text, a space and another text
  are those of the one and those of the other.
-/
theorem split_append_space
    {t : Text}
    (h : t.IsBalanced)
    (rest : Text) :
    split (t ++ ' ' :: rest) = split t ++ split rest := by
  have hAfter := Nesting.afterAll_of_isBalanced h .start
  have hFree : (Nesting.start.afterAll t).isOutside = true := by
    rw [hAfter]
    rfl
  rw [split_eq_filter, split_eq_filter, split_eq_filter,
    pieces_append_space hFree, hAfter, ← List.cons_append,
    List.filter_append]

end Token

end StackCalc

------------------------------------------------------------
-- Line Ends
------------------------------------------------------------

namespace StackCalc

namespace Text

/- Nothing is dropped from a line without such an end. -/
theorem dropLineFeeds_eq_self
    {t : Text}
    (hReturn : t.getLast? ≠ some '\r')
    (hFeed : t.getLast? ≠ some '\n') :
    dropLineFeeds t = t := by
  unfold dropLineFeeds
  rcases List.eq_nil_or_concat t with rfl | ⟨m, c, rfl⟩
  · rfl
  · have hc : (c = '\n' || c = '\r') = false := by
      simp only [List.concat_eq_append, List.getLast?_append,
        List.getLast?_singleton, Option.some_or, ne_eq,
        Option.some.injEq] at hReturn hFeed
      simp [hReturn, hFeed]
    simp [List.concat_eq_append, hc]

/- What is dropped from a line stands after its spaces. -/
theorem dropLineFeeds_append_space
    (t rest : Text) :
    dropLineFeeds (t ++ ' ' :: rest) =
      t ++ ' ' :: dropLineFeeds rest := by
  unfold dropLineFeeds
  rw [List.reverse_append, List.reverse_cons,
    List.append_assoc]
  induction rest.reverse with
  | nil =>
      simp
  | cons c cs ih =>
      by_cases hDrop : (c = '\n' || c = '\r') = true
      · simp only [List.cons_append, List.dropWhile_cons,
          hDrop, if_true]
        exact ih
      · simp [hDrop]

end Text

end StackCalc

------------------------------------------------------------
-- Programs
------------------------------------------------------------

namespace StackCalc

namespace Run

/- Tokens after others start on the stack that these leave. -/
theorem tokens_append
    (step : Text → Stack → Outcome)
    (ts us : List Text)
    (s : Stack) :
    tokens step (ts ++ us) s =
      (tokens step ts s >>= fun s' => tokens step us s') := by
  induction ts generalizing s with
  | nil =>
      rfl
  | cons t ts ih =>
      rw [List.cons_append, tokens, tokens]
      cases step t s with
      | ok s' =>
          exact ih s'
      | error f =>
          rfl

/- Reporting does not care how far a run has come. -/
theorem reported_bind
    (r : Outcome)
    (next : Stack → Outcome) :
    reported (r >>= next) =
      (reported r >>= fun s => reported (next s)) := by
  cases r with
  | ok s =>
      rfl
  | error f =>
      rcases reported_error f with ⟨cause, hReported⟩
      rw [hReported]
      exact hReported

/- Lines after others run on the stack that these leave. -/
theorem program_append
    (lines more : List Text)
    (s : Stack)
    (depth : Nat) :
    program (lines ++ more) s depth =
      (program lines s depth >>= fun s' =>
        program more s' depth) := by
  unfold program tokensOf
  rw [List.flatMap_append, tokens_append, reported_bind]

/- A space after a balanced line splits as a line end. -/
theorem tokensOf_joined_lines
    {a : Text}
    (hBalanced : a.IsBalanced)
    (hReturn : a.getLast? ≠ some '\r')
    (hFeed : a.getLast? ≠ some '\n')
    (b : Text)
    (rest : List Text) :
    tokensOf ((a ++ ' ' :: b) :: rest) =
      tokensOf (a :: b :: rest) := by
  simp only [tokensOf, List.flatMap_cons,
    Text.dropLineFeeds_append_space,
    Token.split_append_space hBalanced,
    Text.dropLineFeeds_eq_self hReturn hFeed,
    List.append_assoc]

end Run

namespace Session

/-
  A line break or a space between a balanced line and any
  other make no difference, and neither does it if the line
  is a program before the other in a session: the outcome
  is the same stack, or the same failure with the same
  stack left. The line must not itself end in characters
  that belong to line ends.
-/
theorem answer_joined_lines
    {a : Text}
    (hBalanced : a.IsBalanced)
    (hReturn : a.getLast? ≠ some '\r')
    (hFeed : a.getLast? ≠ some '\n')
    (b : Text)
    (rest : List Text)
    (s : Stack)
    (depth : Nat) :
    answer s (.run ((a ++ ' ' :: b) :: rest)) depth =
        answer s (.run (a :: b :: rest)) depth ∧
      (answer s (.run [a]) depth >>=
          fun s' => answer s' (.run (b :: rest)) depth) =
        answer s (.run (a :: b :: rest)) depth := by
  constructor
  · rw [answer, answer, Run.program, Run.program,
      Run.tokensOf_joined_lines hBalanced hReturn hFeed]
  · exact (Run.program_append [a] (b :: rest) s depth).symm

/-
  Two strings that hold brackets the wrong way round, so
  that fewer than no brackets are open between them.
-/
theorem answer_joined_lines_brackets :
    Text.IsBalanced "\"]\" \"[\"".toList ∧
      answer []
          (.run ["\"]\" \"[\" +".toList, "DUP".toList]) =
        .ok
          [ .string "\"][\"".toList,
            .string "\"][\"".toList ] ∧
      (answer [] (.run ["\"]\" \"[\"".toList]) >>=
          fun s' =>
            answer s' (.run ["+".toList, "DUP".toList])) =
        .ok
          [ .string "\"][\"".toList,
            .string "\"][\"".toList ] := by
  have hBalanced : Text.IsBalanced "\"]\" \"[\"".toList :=
    ⟨by decide, by decide, by decide⟩
  have hLines :
      answer []
          (.run
            [ "\"]\" \"[\"".toList, "+".toList,
              "DUP".toList ]) =
        .ok
          [ .string "\"][\"".toList,
            .string "\"][\"".toList ] :=
    rfl
  rcases answer_joined_lines hBalanced (by decide) (by decide)
      "+".toList ["DUP".toList] [] Run.maxDepth
    with ⟨hJoined, hTurns⟩
  exact ⟨hBalanced, hJoined.trans hLines,
    hTurns.trans hLines⟩

end Session

end StackCalc

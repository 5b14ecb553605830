import StackCalc.Token.Basic
import StackCalc.Value.Render

/-
  Where a line is split. A text without free spaces stays
  whole at the front of a line, and what is split off after
  it depends on it only through the nesting it leaves.

  A compact text leaves the nesting as it was and has no
  free space of its own, so compact texts with single
  spaces between them are the tokens of their line.

  Main declarations:
    * `Nesting.KeepsWhole`
    * `Token.pieces_append`
    * `Token.split_of_keepsWhole`
    * `Token.IsCompact`
    * `Token.isCompact_bracketed`
    * `Token.IsWord`
    * `Token.split_words`
    * `Token.split_joinWith`
-/

------------------------------------------------------------
-- Nesting After A Text
------------------------------------------------------------

namespace StackCalc

namespace Nesting

/- The nesting after the characters of a text. -/
def afterAll
    (n : Nesting)
    (t : Text) : Nesting :=
  t.foldl after n

/- Texts one after another nest one after another. -/
theorem afterAll_append
    (n : Nesting)
    (s t : Text) :
    n.afterAll (s ++ t) = (n.afterAll s).afterAll t :=
  List.foldl_append

/- No space of a text is free after a nesting. -/
def KeepsWhole
    (n : Nesting) :
    Text → Prop
  | [] => True
  | c :: rest =>
      ¬ (c = ' ' ∧ n.isOutside) ∧ (n.after c).KeepsWhole rest

instance instDecidableKeepsWhole
    (n : Nesting) :
    (t : Text) → Decidable (n.KeepsWhole t)
  | [] => inferInstanceAs (Decidable True)
  | c :: rest =>
      have := instDecidableKeepsWhole (n.after c) rest
      inferInstanceAs (Decidable
        (¬ (c = ' ' ∧ n.isOutside) ∧
          (n.after c).KeepsWhole rest))

/- Two texts are whole if each is, the second after the first. -/
theorem keepsWhole_append
    {n : Nesting}
    {s t : Text} :
    n.KeepsWhole (s ++ t) ↔
      n.KeepsWhole s ∧ (n.afterAll s).KeepsWhole t := by
  induction s generalizing n with
  | nil =>
      simp [KeepsWhole, afterAll]
  | cons c s ih =>
      simp only [List.cons_append, KeepsWhole, ih, and_assoc,
        afterAll, List.foldl_cons]

end Nesting

namespace Token

/-
  A text without free spaces belongs to the first piece of
  its line as a whole.
-/
theorem pieces_append
    {n : Nesting}
    {t : Text}
    (h : n.KeepsWhole t)
    (rest : Text) :
    pieces n (t ++ rest) =
      (t ++ (pieces (n.afterAll t) rest).1,
        (pieces (n.afterAll t) rest).2) := by
  induction t generalizing n with
  | nil =>
      rfl
  | cons c t ih =>
      rcases h with ⟨hFree, hRest⟩
      rw [List.cons_append, pieces, if_neg hFree, ih hRest]
      rfl

/- A text without free spaces is one token. -/
theorem tokenize_of_keepsWhole
    {t : Text}
    (h : Nesting.start.KeepsWhole t)
    (hNe : t ≠ []) :
    tokenize t = [⟨t, 0⟩] := by
  have hPieces := pieces_append h []
  rw [List.append_nil] at hPieces
  simp [tokenize, hPieces, pieces, placed, hNe]

theorem split_of_keepsWhole
    {t : Text}
    (h : Nesting.start.KeepsWhole t)
    (hNe : t ≠ []) :
    split t = [t] := by
  rw [split, tokenize_of_keepsWhole h hNe]
  rfl

end Token

end StackCalc

------------------------------------------------------------
-- Compact Texts
------------------------------------------------------------

namespace StackCalc

namespace Token

/-
  A text that leaves the nesting as it was. Unless more
  brackets were closed than opened before, all spaces in it
  stand inside of its own brackets.
-/
structure IsCompact (t : Text) : Prop where
  closed :
    ∀ n : Nesting, n.afterAll t = n
  whole :
    ∀ n : Nesting, 0 ≤ n.square → n.KeepsWhole t

/- Whether a character neither nests nor separates. -/
def isInert (c : Char) : Bool :=
  !(['[', ']', '{', '}', '"', ' '].contains c)

/- An inert character leaves the nesting as it was. -/
theorem after_of_isInert
    {c : Char}
    (h : isInert c = true)
    (n : Nesting) :
    n.after c = n := by
  simp [isInert] at h
  simp [Nesting.after, h]

/- A text of inert characters is compact. -/
theorem isCompact_of_isInert
    {t : Text}
    (h : ∀ c ∈ t, isInert c = true) :
    IsCompact t := by
  have hAfter : ∀ n : Nesting, n.afterAll t = n := by
    intro n
    unfold Nesting.afterAll
    induction t with
    | nil =>
        rfl
    | cons c t ih =>
        rw [List.foldl_cons,
          after_of_isInert (h c List.mem_cons_self)]
        exact ih fun d hd => h d (List.mem_cons_of_mem c hd)
  refine ⟨hAfter, ?_⟩
  clear hAfter
  intro n _
  induction t with
  | nil =>
      trivial
  | cons c t ih =>
      have hc := h c List.mem_cons_self
      constructor
      · rintro ⟨rfl, -⟩
        exact absurd hc (by decide)
      · rw [after_of_isInert hc]
        exact ih fun d hd => h d (List.mem_cons_of_mem c hd)

/- Compact texts with ", " between them nest nothing. -/
theorem afterAll_joinWith
    {ts : List Text}
    (h : ∀ t ∈ ts, IsCompact t)
    (n : Nesting) :
    n.afterAll (Text.joinWith ", ".toList ts) = n := by
  induction ts with
  | nil =>
      rfl
  | cons t ts ih =>
      have ht := h t List.mem_cons_self
      have hMore := ih fun u hu =>
        h u (List.mem_cons_of_mem t hu)
      cases ts with
      | nil =>
          exact ht.closed n
      | cons u us =>
          have hSep : n.afterAll ", ".toList = n := rfl
          rw [Text.joinWith_cons_cons, Nesting.afterAll_append,
            Nesting.afterAll_append, ht.closed, hSep, hMore]

/- Inside of brackets they have no free space. -/
theorem keepsWhole_joinWith
    {n : Nesting}
    {ts : List Text}
    (h : ∀ t ∈ ts, IsCompact t)
    (hOpen : 0 < n.square) :
    n.KeepsWhole (Text.joinWith ", ".toList ts) := by
  have hInside : n.isOutside = false := by
    have hNot : ¬ n.square ≤ 0 := by omega
    simp [Nesting.isOutside, hNot]
  have hSep : n.KeepsWhole ", ".toList := by
    show n.KeepsWhole [',', ' ']
    refine ⟨by simp, ?_, trivial⟩
    rw [after_of_isInert rfl]
    simp [hInside]
  induction ts with
  | nil =>
      trivial
  | cons t ts ih =>
      have ht := h t List.mem_cons_self
      have hFirst : n.KeepsWhole t :=
        ht.whole n (Int.le_of_lt hOpen)
      have hMore := ih fun u hu =>
        h u (List.mem_cons_of_mem t hu)
      cases ts with
      | nil =>
          exact hFirst
      | cons u us =>
          have hAfter : n.afterAll ", ".toList = n := rfl
          rw [Text.joinWith_cons_cons,
            Nesting.keepsWhole_append,
            Nesting.keepsWhole_append, ht.closed, hAfter]
          exact ⟨hFirst, hSep, hMore⟩

/- Compact texts between brackets are compact. -/
theorem isCompact_bracketed
    {ts : List Text}
    (h : ∀ t ∈ ts, IsCompact t) :
    IsCompact (bracketed ts) := by
  constructor
  · intro n
    have hInner := afterAll_joinWith h (n.after '[')
    show (n.after '[').afterAll
      (Text.joinWith ", ".toList ts ++ [']']) = n
    rw [Nesting.afterAll_append, hInner]
    simp [Nesting.afterAll, Nesting.after]
  · intro n hn
    have hInside : 0 < (n.after '[').square := by
      show 0 < n.square + 1
      omega
    refine ⟨by simp, ?_⟩
    rw [Nesting.keepsWhole_append]
    exact ⟨keepsWhole_joinWith h hInside, by simp, trivial⟩

end Token

end StackCalc

------------------------------------------------------------
-- Words Of A Line
------------------------------------------------------------

namespace StackCalc

namespace Token

/-
  A text that can stand between spaces as a token: nothing
  of it is free, and it closes whatever it opens.
-/
structure IsWord (t : Text) : Prop where
  closed :
    Nesting.start.afterAll t = .start
  whole :
    Nesting.start.KeepsWhole t

instance
    (t : Text) :
    Decidable (IsWord t) :=
  decidable_of_iff
    (Nesting.start.afterAll t = .start ∧
      Nesting.start.KeepsWhole t)
    ⟨fun h => ⟨h.1, h.2⟩, fun h => ⟨h.closed, h.whole⟩⟩

/- Compact texts are words. -/
theorem IsCompact.isWord
    {t : Text}
    (h : IsCompact t) :
    IsWord t :=
  ⟨h.closed .start, h.whole .start (by decide)⟩

/- A word is the first piece of its line. -/
theorem pieces_isWord
    {t : Text}
    (h : IsWord t)
    (rest : Text) :
    pieces .start (t ++ rest) =
      (t ++ (pieces .start rest).1, (pieces .start rest).2) := by
  rw [pieces_append h.whole, h.closed]

/-
  Words with a space between neighbours are the pieces of
  their line.
-/
theorem pieces_joinWith
    {t : Text}
    {ts : List Text}
    (h : ∀ u ∈ t :: ts, IsWord u) :
    pieces .start (Text.joinWith [' '] (t :: ts)) = (t, ts) := by
  induction ts generalizing t with
  | nil =>
      have ht := h t List.mem_cons_self
      have hPieces := pieces_isWord ht []
      rw [List.append_nil] at hPieces
      rw [Text.joinWith, hPieces]
      simp [pieces]
  | cons u us ih =>
      have ht := h t List.mem_cons_self
      have hMore := ih fun w hw =>
        h w (List.mem_cons_of_mem t hw)
      rw [Text.joinWith_cons_cons, pieces_isWord ht,
        List.singleton_append, pieces, if_pos ⟨rfl, rfl⟩,
        hMore]
      simp

/-
  Words that are not empty are the tokens of the line that
  they make up.
-/
theorem split_words
    {ts : List Text}
    (h : ∀ t ∈ ts, IsWord t)
    (hNe : ∀ t ∈ ts, t ≠ []) :
    split (Text.joinWith [' '] ts) = ts := by
  cases ts with
  | nil =>
      rfl
  | cons t ts =>
      have hFilter :
          (t :: ts).filter (fun p => !p.isEmpty) = t :: ts := by
        rw [List.filter_eq_self]
        intro u hu
        simpa using hNe u hu
      rw [split, tokenize, pieces_joinWith h, map_text_placed,
        hFilter]

/- So are compact texts that are not empty. -/
theorem split_joinWith
    {ts : List Text}
    (h : ∀ t ∈ ts, IsCompact t)
    (hNe : ∀ t ∈ ts, t ≠ []) :
    split (Text.joinWith [' '] ts) = ts :=
  split_words (fun t ht => (h t ht).isWord) hNe

end Token

end StackCalc

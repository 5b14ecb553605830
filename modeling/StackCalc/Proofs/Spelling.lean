import StackCalc.Proofs.RoundTrip
import StackCalc.Proofs.Splitting

/-
  The texts of plain values as tokens. Such a text is one
  token of the line that it stands in, it names no operator
  and opens no block, so carrying it out pushes the value
  that it was written for.

  Main declarations:
    * `Value.spelling`
    * `Value.mem_spelling`
    * `Value.isCompact_spelling`
    * `Value.dispatch_spelling`
    * `Value.tokens_spelling`
-/

------------------------------------------------------------
-- Spellings
------------------------------------------------------------

namespace StackCalc

namespace Text

/- Joined texts hold what they and the separator hold. -/
theorem mem_joinWith
    {sep : Text}
    {ts : List Text}
    {c : Char}
    (h : c ∈ joinWith sep ts) :
    c ∈ sep ∨ ∃ t ∈ ts, c ∈ t := by
  induction ts with
  | nil =>
      simp [joinWith] at h
  | cons t ts ih =>
      cases ts with
      | nil =>
          exact .inr ⟨t, List.mem_cons_self, h⟩
      | cons u us =>
          rw [joinWith_cons_cons] at h
          rcases List.mem_append.1 h with hFirst | hRest
          · exact .inr ⟨t, List.mem_cons_self, hFirst⟩
          · rcases List.mem_append.1 hRest with hSep | hMore
            · exact .inl hSep
            · rcases ih hMore with hSep | ⟨w, hw, hc⟩
              · exact .inl hSep
              · exact .inr ⟨w, List.mem_cons_of_mem t hw, hc⟩

end Text

namespace Value

/- The text of a value; empty if it cannot be written. -/
def spelling (v : Value) : Text :=
  v.render.getD []

/- A value that can be written is, by its spelling. -/
theorem render_eq_spelling_of_isSome
    {v : Value}
    (h : v.render.isSome = true) :
    v.render = some v.spelling := by
  rcases Option.isSome_iff_exists.1 h with ⟨t, hRender⟩
  rw [spelling, hRender]
  rfl

/- A plain value is written by its spelling. -/
theorem render_eq_spelling
    {v : Value}
    (h : v.IsPlain) :
    v.render = some v.spelling := by
  rcases exists_render_of_isPlain h with ⟨t, hRender⟩
  exact render_eq_spelling_of_isSome (by simp [hRender])

/- The spelling of a short integer. -/
theorem spelling_integer
    {z : Int}
    (h : Decimal.isShort z = true) :
    (integer z).spelling = Decimal.intText z := by
  rw [spelling, render, Decimal.intText?_of_isShort h]
  rfl

/-
  Characters that spellings of plain values consist of:
  those of numbers, of arrays and of truth values.
-/
def isSpelling (c : Char) : Bool :=
  c.isDigit || "-[], truefals".toList.contains c

/- A written integer consists of such characters. -/
theorem isSpelling_of_mem_intText
    {z : Int}
    {c : Char}
    (h : c ∈ Decimal.intText z) :
    isSpelling c = true := by
  have hDigits :
      ∀ d ∈ Decimal.natText z.natAbs,
        isSpelling d = true := by
    intro d hd
    simp [isSpelling, Decimal.isDigit_of_mem_natText hd]
  unfold Decimal.intText at h
  split at h
  · rcases List.mem_cons.1 h with rfl | hMem
    · rfl
    · exact hDigits c hMem
  · exact hDigits c h

/- So do texts between brackets. -/
theorem isSpelling_of_mem_bracketed
    {ts : List Text}
    {c : Char}
    (hTexts : ∀ t ∈ ts, ∀ d ∈ t, isSpelling d = true)
    (h : c ∈ bracketed ts) :
    isSpelling c = true := by
  unfold bracketed at h
  rcases List.mem_cons.1 h with rfl | hMem
  · rfl
  · rcases List.mem_append.1 hMem with hInner | hLast
    · rcases Text.mem_joinWith hInner with
        hSep | ⟨t, ht, hc⟩
      · exact List.all_eq_true.1
          (by decide : ", ".toList.all isSpelling = true) c hSep
      · exact hTexts t ht c hc
    · rw [List.mem_singleton.1 hLast]
      rfl

/- The texts of written integers, all such characters. -/
theorem isSpelling_of_mem_map_intText
    (zs : List Int) :
    ∀ t ∈ zs.map Decimal.intText,
      ∀ c ∈ t, isSpelling c = true := by
  intro t ht c hc
  rcases List.mem_map.1 ht with ⟨z, -, rfl⟩
  exact isSpelling_of_mem_intText hc

/- A spelling consists of such characters alone. -/
theorem mem_spelling
    {v : Value}
    {c : Char}
    (hPlain : v.IsPlain)
    (h : c ∈ v.spelling) :
    isSpelling c = true := by
  cases hPlain with
  | boolean b =>
      have hAll :
          (boolean b).spelling.all isSpelling = true := by
        cases b
        · rfl
        · rfl
      exact List.all_eq_true.1 hAll c h
  | integer hShort =>
      rw [spelling_integer hShort] at h
      exact isSpelling_of_mem_intText h
  | @vector zs hFits =>
      exact isSpelling_of_mem_bracketed
        (isSpelling_of_mem_map_intText zs) h
  | matrix hWellFormed hFits =>
      apply isSpelling_of_mem_bracketed _ h
      intro t ht d hd
      rcases List.mem_map.1 ht with ⟨row, -, rfl⟩
      exact isSpelling_of_mem_bracketed
        (isSpelling_of_mem_map_intText row) hd

end Value

end StackCalc

------------------------------------------------------------
-- Spellings As Tokens
------------------------------------------------------------

namespace StackCalc

/- A digit neither nests nor separates. -/
theorem Token.isInert_of_isDigit
    {d : Char}
    (hd : d.isDigit = true) :
    isInert d = true := by
  have hNe := fun c hc => Text.ne_of_isDigit (c := c) hd hc
  simp [isInert, hNe '[' rfl, hNe ']' rfl, hNe '{' rfl,
    hNe '}' rfl, hNe '"' rfl, hNe ' ' rfl]

namespace Value

/- A written integer is one token. -/
theorem isCompact_intText
    (z : Int) :
    Token.IsCompact (Decimal.intText z) := by
  apply Token.isCompact_of_isInert
  intro c hc
  unfold Decimal.intText at hc
  split at hc
  · rcases List.mem_cons.1 hc with rfl | hMem
    · rfl
    · exact Token.isInert_of_isDigit
        (Decimal.isDigit_of_mem_natText hMem)
  · exact Token.isInert_of_isDigit
      (Decimal.isDigit_of_mem_natText hc)

/- Written integers between brackets are one token. -/
theorem isCompact_bracketed_intText
    (zs : List Int) :
    Token.IsCompact (bracketed (zs.map Decimal.intText)) := by
  apply Token.isCompact_bracketed
  intro t ht
  rcases List.mem_map.1 ht with ⟨z, -, rfl⟩
  exact isCompact_intText z

/- A spelling is one token. -/
theorem isCompact_spelling
    {v : Value}
    (h : v.IsPlain) :
    Token.IsCompact v.spelling := by
  cases h with
  | boolean b =>
      have hAll :
          (boolean b).spelling.all Token.isInert = true := by
        cases b
        · rfl
        · rfl
      exact Token.isCompact_of_isInert
        (List.all_eq_true.1 hAll)
  | @integer z hShort =>
      rw [spelling_integer hShort]
      exact isCompact_intText z
  | @vector zs hFits =>
      exact isCompact_bracketed_intText zs
  | matrix hWellFormed hFits =>
      apply Token.isCompact_bracketed
      intro t ht
      rcases List.mem_map.1 ht with ⟨row, -, rfl⟩
      exact isCompact_bracketed_intText row

theorem spelling_ne_nil
    {v : Value}
    (h : v.IsPlain) :
    v.spelling ≠ [] := by
  cases h with
  | boolean b =>
      revert b
      decide
  | @integer z hShort =>
      rcases Literal.exists_intText_eq_cons z with
        ⟨c, r, hCons, -⟩
      rw [spelling_integer hShort, hCons]
      exact List.cons_ne_nil c r
  | vector hFits =>
      exact List.cons_ne_nil _ _
  | matrix hWellFormed hFits =>
      exact List.cons_ne_nil _ _

/- A spelling names no operator, not even a minus. -/
theorem ofName?_spelling
    {v : Value}
    (h : v.IsPlain) :
    Operator.ofName? v.spelling = none := by
  have hOpen : Operator.isForeign '[' = true := by
    decide
  cases h with
  | boolean b =>
      revert b
      decide
  | @integer z hShort =>
      rcases Decimal.exists_natText_eq_cons z.natAbs with
        ⟨d, ds, hCons, hd⟩
      have hMem : d ∈ Decimal.intText z := by
        unfold Decimal.intText
        split
        · simp [hCons]
        · simp [hCons]
      rw [spelling_integer hShort]
      exact Operator.ofName?_eq_none
        (Operator.isForeign_of_isDigit hd) hMem
  | vector hFits =>
      exact Operator.ofName?_eq_none hOpen List.mem_cons_self
  | matrix hWellFormed hFits =>
      exact Operator.ofName?_eq_none hOpen List.mem_cons_self

/-
  A spelling is taken for a literal: it is no operator,
  and it starts with neither apostrophe nor brace.
-/
theorem dispatch_eq_literal
    {v : Value}
    (h : v.IsPlain)
    (depth : Nat)
    (s : Stack) :
    Run.dispatch (depth + 1) v.spelling s =
      Run.literal v.spelling s := by
  have hStart :
      ∀ c, v.spelling.head? = some c → isSpelling c = true :=
    fun c hc => mem_spelling h (List.mem_of_mem_head? hc)
  apply Run.dispatch_literal (ofName?_spelling h)
  · intro hQuote
    exact absurd (hStart _ hQuote) (by decide)
  · intro hBrace
    exact absurd (hStart _ hBrace) (by decide)

/- Carrying out a spelling pushes the value. -/
theorem dispatch_spelling
    {v : Value}
    (hPlain : v.IsPlain)
    (hRows : ¬ v.IsRowless)
    (depth : Nat)
    (s : Stack) :
    Run.dispatch (depth + 1) v.spelling s = .ok (v :: s) := by
  rw [dispatch_eq_literal hPlain, Run.literal,
    parse_of_render hPlain hRows (render_eq_spelling hPlain)]

/-
  Carrying out spellings one after another pushes the
  values, the last one on top.
-/
theorem tokens_spelling
    {vs : List Value}
    (h : ∀ v ∈ vs, v.IsPlain ∧ ¬ v.IsRowless)
    (depth : Nat)
    (s : Stack) :
    Run.tokens (Run.dispatch (depth + 1))
        (vs.map spelling) s =
      .ok (vs.reverse ++ s) := by
  induction vs generalizing s with
  | nil =>
      rfl
  | cons v vs ih =>
      rcases h v List.mem_cons_self with ⟨hPlain, hRows⟩
      have hMore := ih fun u hu =>
        h u (List.mem_cons_of_mem v hu)
      rw [List.map_cons, Run.tokens,
        dispatch_spelling hPlain hRows]
      show Run.tokens _ _ (v :: s) = _
      rw [hMore, List.reverse_cons, List.append_assoc]
      rfl

end Value

end StackCalc

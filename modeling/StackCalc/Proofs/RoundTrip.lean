import StackCalc.Proofs.Dispatch
import StackCalc.Proofs.WrittenInteger

/-
  Values without doubles survive being written and read.

  The writer puts ", " between the entries of an array, and
  the reader takes entries one by one up to the closing
  bracket; `Reader.Spells` is what the two agree on about a
  single entry. Only a matrix without rows is lost: its
  text is that of the empty vector.

  Main declarations:
    * `Reader.array_joinWith`
    * `Literal.readNode_renderVector`
    * `Literal.readNode_renderMatrix`
    * `Value.parse_of_render`
    * `Value.parse_render_iff_not_isRowless`
-/

------------------------------------------------------------
-- Items Between Commas
------------------------------------------------------------

namespace StackCalc

namespace Text

/- Joined texts start with the first of them. -/
theorem exists_joinWith_eq_append
    (sep t : Text)
    (ts : List Text) :
    ∃ rest, joinWith sep (t :: ts) = t ++ rest := by
  cases ts with
  | nil =>
      exact ⟨[], (List.append_nil t).symm⟩
  | cons u us =>
      exact ⟨sep ++ joinWith sep (u :: us),
        joinWith_cons_cons sep t u us⟩

end Text

namespace Reader

variable {α β : Type}

/- An item with a comma after it goes before the others. -/
theorem items_of_comma
    {item : Reader α}
    {t r r' r'' : Text}
    {a : α}
    {as : List α}
    (hItem : item.read (Text.dropBlanks t) = .ok (a, r))
    (hComma : Text.dropBlanks r = ',' :: r')
    (hMore : items item r' = .ok (as, r'')) :
    items item t = .ok (a :: as, r'') := by
  rw [items]
  split
  case h_1 e hError =>
    rw [hItem] at hError
    simp at hError
  case h_2 a' r₁ hRead =>
    rw [hItem] at hRead
    simp only [Except.ok.injEq, Prod.mk.injEq] at hRead
    rcases hRead with ⟨rfl, rfl⟩
    split
    · rename_i r₂ hRest
      rw [hComma] at hRest
      rcases List.cons.inj hRest with ⟨-, rfl⟩
      rw [hMore]
    · rename_i r₂ hRest
      rw [hComma] at hRest
      simp at hRest
    · rename_i hNotComma hNotClose
      exact absurd hComma (hNotComma r')

/- An item with a bracket after it is the last one. -/
theorem items_of_close
    {item : Reader α}
    {t r r' : Text}
    {a : α}
    (hItem : item.read (Text.dropBlanks t) = .ok (a, r))
    (hClose : Text.dropBlanks r = ']' :: r') :
    items item t = .ok ([a], r') := by
  rw [items]
  split
  case h_1 e hError =>
    rw [hItem] at hError
    simp at hError
  case h_2 a' r₁ hRead =>
    rw [hItem] at hRead
    simp only [Except.ok.injEq, Prod.mk.injEq] at hRead
    rcases hRead with ⟨rfl, rfl⟩
    split
    · rename_i r₂ hRest
      rw [hClose] at hRest
      simp at hRest
    · rename_i r₂ hRest
      rw [hClose] at hRest
      rcases List.cons.inj hRest with ⟨-, rfl⟩
      rfl
    · rename_i hNotComma hNotClose
      exact absurd hClose (hNotClose r')

/-
  A text spells an item for a reader: it starts neither
  with a blank nor with a closing bracket, and before a
  comma or a closing bracket it is read as the item.
-/
structure Spells
    (item : Reader α)
    (t : Text)
    (a : α) : Prop where
  start :
    ∃ c r, t = c :: r ∧ Text.isBlank c = false ∧ c ≠ ']'
  read :
    ∀ {c : Char} (r : Text), c = ',' ∨ c = ']' →
      item.read (t ++ c :: r) = .ok (a, c :: r)

/- No blanks stand before the spellings of items. -/
theorem Spells.dropBlanks_joinWith
    {item : Reader α}
    {t : Text}
    {a : α}
    (h : Spells item t a)
    (sep : Text)
    (ts : List Text)
    (r : Text) :
    Text.dropBlanks (Text.joinWith sep (t :: ts) ++ r) =
      Text.joinWith sep (t :: ts) ++ r := by
  rcases h.start with ⟨c, r', rfl, hBlank, -⟩
  rcases Text.exists_joinWith_eq_append sep (c :: r') ts with
    ⟨rest, hJoin⟩
  rw [hJoin]
  exact Text.dropBlanks_cons hBlank

/-
  Spellings with ", " between them are read as their items.
  The text may have blanks before the first spelling, as
  the text after a comma does.
-/
theorem items_joinWith
    {item : Reader α}
    {f : β → Text}
    {g : β → α}
    {x : β}
    {xs : List β}
    {t r : Text}
    (hSpells : ∀ y ∈ x :: xs, Spells item (f y) (g y))
    (hText :
      Text.dropBlanks t =
        Text.joinWith ", ".toList ((x :: xs).map f) ++
          ']' :: r) :
    items item t = .ok ((x :: xs).map g, r) := by
  induction xs generalizing x t with
  | nil =>
      have hx := hSpells x List.mem_cons_self
      apply items_of_close (r := ']' :: r)
      · rw [hText]
        exact hx.read r (.inr rfl)
      · exact Text.dropBlanks_cons (by decide)
  | cons y ys ih =>
      have hx := hSpells x List.mem_cons_self
      have hy := hSpells y
        (List.mem_cons_of_mem x List.mem_cons_self)
      have hMore := fun z hz =>
        hSpells z (List.mem_cons_of_mem x hz)
      let rest :=
        Text.joinWith ", ".toList ((y :: ys).map f) ++ ']' :: r
      have hSplit :
          Text.dropBlanks t = f x ++ ',' :: ' ' :: rest := by
        rw [hText, List.map_cons, List.map_cons,
          Text.joinWith_cons_cons]
        simp [rest]
      have hRest :
          Text.dropBlanks (' ' :: rest) = rest := by
        rw [Text.dropBlanks_cons_blank (by decide)]
        exact hy.dropBlanks_joinWith _ _ _
      have hItem :
          item.read (Text.dropBlanks t) =
            .ok (g x, ',' :: ' ' :: rest) := by
        rw [hSplit]
        exact hx.read _ (.inl rfl)
      apply items_of_comma hItem
      · exact Text.dropBlanks_cons (by decide)
      · exact ih hMore hRest

/- The spellings of an array are read as its items. -/
theorem array_joinWith
    {item : Reader α}
    {f : β → Text}
    {g : β → α}
    {xs : List β}
    (hSpells : ∀ x ∈ xs, Spells item (f x) (g x))
    (r : Text) :
    array item
        (Text.joinWith ", ".toList (xs.map f) ++ ']' :: r) =
      .ok (xs.map g, r) := by
  cases xs with
  | nil =>
      rfl
  | cons x xs =>
      have hx := hSpells x List.mem_cons_self
      have hDrop :=
        hx.dropBlanks_joinWith ", ".toList (xs.map f) (']' :: r)
      unfold array
      split
      · rename_i r' hClose
        rcases hx.start with ⟨d, ds, hStart, -, hNotClose⟩
        rcases Text.exists_joinWith_eq_append ", ".toList (f x)
            (xs.map f) with
          ⟨rest, hJoin⟩
        rw [List.map_cons, hDrop, hJoin, hStart] at hClose
        exact absurd (List.cons.inj hClose).1 hNotClose
      · exact items_joinWith hSpells hDrop

end Reader

end StackCalc

------------------------------------------------------------
-- Vectors And Rows
------------------------------------------------------------

namespace StackCalc

namespace Literal

open Decimal

/- A comma or a closing bracket ends a numeral. -/
theorem endsNumeral_of_separator
    {c : Char}
    (h : c = ',' ∨ c = ']')
    (r : Text) :
    Numeral.endsNumeral (c :: r) = true := by
  rcases h with rfl | rfl
  · rfl
  · rfl

/- A written integer starts with a digit or a minus. -/
theorem exists_intText_eq_cons
    (z : Int) :
    ∃ c r, intText z = c :: r ∧
      (c.isDigit = true ∨ c = '-') := by
  rcases exists_natText_eq_cons z.natAbs with
    ⟨d, ds, hCons, hd⟩
  by_cases hNeg : z < 0
  · exact ⟨'-', natText z.natAbs, if_pos hNeg, .inr rfl⟩
  · refine ⟨d, ds, ?_, .inl hd⟩
    rw [intText, if_neg hNeg, hCons]

/- A written integer is told from a blank or a bracket. -/
theorem exists_intText_start
    (z : Int) :
    ∃ c r, intText z = c :: r ∧ Text.isBlank c = false ∧
      c ≠ '[' ∧ c ≠ ']' ∧ c ≠ '"' := by
  rcases exists_intText_eq_cons z with
    ⟨c, r, hCons, hDigit | rfl⟩
  · exact ⟨c, r, hCons, Text.isBlank_of_isDigit hDigit,
      Text.ne_of_isDigit hDigit rfl,
      Text.ne_of_isDigit hDigit rfl,
      Text.ne_of_isDigit hDigit rfl⟩
  · exact ⟨'-', r, hCons, by decide, by decide, by decide,
      by decide⟩

/- A written integer is the spelling of an entry in a row. -/
theorem rowItem_spells_intText
    {z : Int}
    (h : isShort z = true) :
    rowItem.Spells (intText z) (.number (.integer z)) := by
  rcases exists_intText_start z with
    ⟨d, ds, hCons, hBlank, hOpen, hClose, -⟩
  refine ⟨⟨d, ds, hCons, hBlank, hClose⟩, ?_⟩
  intro c r hc
  show readRowItem (intText z ++ c :: r) = _
  have hRead :
      readRowItem (intText z ++ c :: r) =
        Scalar.read (intText z ++ c :: r) := by
    rw [hCons, List.cons_append]
    unfold readRowItem
    split
    · rename_i rest hStart
      exact absurd (List.cons.inj hStart).1 hOpen
    · rfl
  rw [hRead]
  exact Scalar.read_intText h (endsNumeral_of_separator hc r)

/- A written integer is the spelling of an entry. -/
theorem item_spells_intText
    {z : Int}
    (h : isShort z = true) :
    item.Spells (intText z)
      (.scalar (.number (.integer z))) := by
  rcases exists_intText_start z with
    ⟨d, ds, hCons, hBlank, hOpen, hClose, -⟩
  refine ⟨⟨d, ds, hCons, hBlank, hClose⟩, ?_⟩
  intro c r hc
  have hScalar :=
    Scalar.read_intText h (endsNumeral_of_separator hc r)
  show readItem (intText z ++ c :: r) = _
  rw [hCons, List.cons_append] at hScalar ⊢
  unfold readItem
  split
  · rename_i rest hStart
    exact absurd (List.cons.inj hStart).1 hOpen
  · rw [hScalar]

/- Integers that fit into storage are packed as they are. -/
theorem pack_integers
    {zs : List Int}
    (h : ∀ z ∈ zs, Storage.fits z = true) :
    pack (zs.map fun z => .number (.integer z)) =
      .ok (.ints zs) := by
  have hNumbers :
      numbers? (zs.map fun z => .number (.integer z)) =
        some (zs.map Number.integer) := by
    clear h
    unfold numbers?
    induction zs with
    | nil =>
        rfl
    | cons z zs ih =>
        simp [ih]
  have hNoFloat :
      (zs.map Number.integer).any Number.isFloat = false := by
    simp [Number.isFloat]
  have hIntegers :
      Number.integers (zs.map Number.integer) = zs := by
    clear h hNumbers hNoFloat
    induction zs with
    | nil =>
        rfl
    | cons z zs ih =>
        simp [Number.integers, ih]
  have hFits : Storage.firstUnfit? zs = none :=
    Storage.firstUnfit?_eq_none_iff.2 h
  have hVector :
      NumVector.ofNumbers (zs.map Number.integer) =
        .ok (.ints zs) := by
    unfold NumVector.ofNumbers
    rw [hNoFloat, hIntegers]
    simp [hFits]
  simp only [pack, hNumbers, hVector]

/- A written row is read as the vector of its entries. -/
theorem readRow_integers
    {zs : List Int}
    (h : ∀ z ∈ zs, Storage.fits z = true)
    (whole r : Text) :
    readRow whole
        (Text.joinWith ", ".toList (zs.map intText) ++
          ']' :: r) =
      .ok (.ints zs, r) := by
  have hArray :=
    Reader.array_joinWith
      (fun z hz => rowItem_spells_intText
        (isShort_of_fits (h z hz))) r
  simp only [readRow, hArray, pack_integers h]

/- A written row is the spelling of a row. -/
theorem item_spells_row
    {zs : List Int}
    (h : ∀ z ∈ zs, Storage.fits z = true) :
    item.Spells (bracketed (zs.map intText))
      (.row (.ints zs)) := by
  refine ⟨⟨'[', _, rfl, by decide, by decide⟩, ?_⟩
  intro c r hc
  show readItem (bracketed (zs.map intText) ++ c :: r) = _
  simp only [bracketed, List.cons_append, List.append_assoc,
    List.nil_append, readItem, readRow_integers h]

end Literal

end StackCalc

------------------------------------------------------------
-- Arrays
------------------------------------------------------------

namespace StackCalc

namespace Literal

open Decimal

/- Scalars alone are packed into a vector. -/
theorem packItems_integers
    {zs : List Int}
    (h : ∀ z ∈ zs, Storage.fits z = true) :
    packItems
        (zs.map fun z => .scalar (.number (.integer z))) =
      .ok (.vector (.ints zs)) := by
  simp only [packItems, rowsOf_map_scalar,
    scalarsOf_map_scalar, pack_integers h]

/- Rows alone are kept, if there are any. -/
theorem packItems_rows
    {rows : List (List Int)}
    (h : rows ≠ []) :
    packItems (rows.map fun zs => .row (.ints zs)) =
      .ok (.rows (rows.map .ints)) := by
  simp only [packItems, rowsOf_map_row, scalarsOf_map_row]
  rcases List.exists_cons_of_ne_nil h with ⟨row, more, rfl⟩
  rfl

/- A written vector is read as that vector. -/
theorem readNode_renderVector
    {zs : List Int}
    (h : ∀ z ∈ zs, Storage.fits z = true) :
    readNode (Value.renderVector (.ints zs)) =
      .ok (.vector (.ints zs), []) := by
  have hArray :=
    Reader.array_joinWith
      (fun z hz => item_spells_intText
        (isShort_of_fits (h z hz))) []
  simp only [Value.renderVector, bracketed, readNode, hArray,
    packItems_integers h]

/- A written matrix with rows is read as these rows. -/
theorem readNode_renderMatrix
    {g : Grid Int}
    (hRows : g.rows ≠ [])
    (h : ∀ row ∈ g.rows, ∀ z ∈ row, Storage.fits z = true) :
    readNode (Value.renderMatrix (.ints g)) =
      .ok (.rows (g.rows.map .ints), []) := by
  have hArray :=
    Reader.array_joinWith
      (fun row hRow => item_spells_row (h row hRow)) []
  simp only [Value.renderMatrix, bracketed] at hArray ⊢
  simp only [readNode, hArray, packItems_rows hRows]

/- Rows of one length have that length as their width. -/
theorem commonWidth_of_forall_eq
    {ns : List Nat}
    {w : Nat}
    (hNe : ns ≠ [])
    (h : ∀ n ∈ ns, n = w) :
    NumMatrix.commonWidth ns = .ok w := by
  have hDups : ns.eraseDups = [w] := by
    rcases List.exists_cons_of_ne_nil hNe with ⟨n, more, rfl⟩
    have hFirst : n = w := h n List.mem_cons_self
    have hOthers : more.filter (fun b => !b == n) = [] := by
      rw [List.filter_eq_nil_iff]
      intro b hb
      simp [h b (List.mem_cons_of_mem n hb), hFirst]
    rw [List.eraseDups_cons, hOthers, hFirst]
    rfl
  simp [NumMatrix.commonWidth, NumMatrix.distinctLengths, hDups]

/- The rows of a matrix make up that matrix. -/
theorem ofRows_rows
    {g : Grid Int}
    (hRows : g.rows ≠ [])
    (h : g.WellFormed) :
    NumMatrix.ofRows (g.rows.map .ints) = .ok (.ints g) := by
  have hWidth :
      NumMatrix.commonWidth
        ((g.rows.map Entries.ints).map NumVector.length) =
          .ok g.width := by
    apply commonWidth_of_forall_eq
    · simpa using hRows
    · intro n hn
      simp only [List.map_map, List.mem_map,
        Function.comp_apply, NumVector.length] at hn
      rcases hn with ⟨row, hRow, rfl⟩
      exact h row hRow
  have hNoFloats :
      (g.rows.map Entries.ints).any NumVector.isFloats =
        false := by
    simp [NumVector.isFloats]
  have hIntegers :
      (g.rows.map Entries.ints).map NumVector.integers =
        g.rows := by
    simp [NumVector.integers, Function.comp_def]
  simp only [NumMatrix.ofRows, hWidth, hNoFloats, hIntegers,
    Bool.false_eq_true, if_false]

/-
  A text that is no string and that the reader takes as a
  whole is parsed to what was read.
-/
theorem parse_of_readNode
    {c : Char}
    {t : Text}
    {node : Node}
    {v : Value}
    (hBlank : Text.isBlank c = false)
    (hQuote : c ≠ '"')
    (hRead : readNode (c :: t) = .ok (node, []))
    (hValue : node.toValue = .ok v) :
    parse (c :: t) = .ok v := by
  have hNotQuoted : Text.isQuoted (c :: t) = false := by
    simp [Text.isQuoted, Text.isWrapped, hQuote]
  have hWhole : readWhole (c :: t) = .ok node := by
    unfold readWhole
    rw [Text.dropBlanks_cons hBlank, hRead]
    rfl
  simp [parse, hNotQuoted, hWhole, hValue]

end Literal

end StackCalc

------------------------------------------------------------
-- Values
------------------------------------------------------------

namespace StackCalc

namespace Value

/-
  Values without doubles and strings: truth values, short
  integers, and arrays of integers as they are stored.
-/
inductive IsPlain : Value → Prop
  | boolean
      (b : Bool) :
      IsPlain (boolean b)
  | integer
      {z : Int}
      (hShort : Decimal.isShort z = true) :
      IsPlain (integer z)
  | vector
      {zs : List Int}
      (hFits : ∀ z ∈ zs, Storage.fits z = true) :
      IsPlain (vector (.ints zs))
  | matrix
      {g : Grid Int}
      (hWellFormed : g.WellFormed)
      (hFits : ∀ z ∈ g.toList, Storage.fits z = true) :
      IsPlain (matrix (.ints g))

/- Matrices without rows, whatever their width. -/
def IsRowless : Value → Prop
  | matrix m => m.height = 0
  | _ => False

/- What a rowless plain value is. -/
theorem eq_matrix_of_isRowless
    {v : Value}
    (hPlain : v.IsPlain)
    (hRowless : v.IsRowless) :
    ∃ w, v = matrix (.ints ⟨w, []⟩) := by
  cases hPlain with
  | @matrix g hWellFormed hFits =>
      rcases g with ⟨w, rows⟩
      have hRows : rows = [] :=
        List.eq_nil_of_length_eq_zero hRowless
      exact ⟨w, by rw [hRows]⟩
  | _ =>
      exact hRowless.elim

/- A plain value is written. -/
theorem exists_render_of_isPlain
    {v : Value}
    (h : v.IsPlain) :
    ∃ t, v.render = some t := by
  cases h with
  | @integer z hShort =>
      exact ⟨_, Decimal.intText?_of_isShort hShort⟩
  | _ =>
      exact ⟨_, rfl⟩

/- A written short integer is parsed to that integer. -/
theorem parse_intText
    {z : Int}
    (h : Decimal.isShort z = true) :
    Literal.parse (Decimal.intText z) =
      .ok (integer z) := by
  have hRead : Scalar.read (Decimal.intText z ++ []) = _ :=
    Scalar.read_intText h rfl
  rcases Literal.exists_intText_start z with
    ⟨c, r, hCons, hBlank, hOpen, -, hQuote⟩
  rw [List.append_nil, hCons] at hRead
  have hNode :
      Literal.readNode (c :: r) =
        .ok (.scalar (.number (.integer z)), []) := by
    unfold Literal.readNode
    split
    · rename_i rest hStart
      exact absurd (List.cons.inj hStart).1 hOpen
    · rw [hRead]
  rw [hCons]
  exact Literal.parse_of_readNode hBlank hQuote hNode rfl

/- A plain value with rows, if a matrix, is read back. -/
theorem parse_of_render
    {v : Value}
    {t : Text}
    (hPlain : v.IsPlain)
    (hRows : ¬ v.IsRowless)
    (hRender : v.render = some t) :
    Literal.parse t = .ok v := by
  cases hPlain with
  | boolean b =>
      cases b with
      | true =>
          rw [← Option.some.inj hRender]
          rfl
      | false =>
          rw [← Option.some.inj hRender]
          rfl
  | @integer z hShort =>
      have hText : some (Decimal.intText z) = some t :=
        (Decimal.intText?_of_isShort hShort).symm.trans hRender
      rw [← Option.some.inj hText]
      exact parse_intText hShort
  | vector hFits =>
      rw [← Option.some.inj hRender]
      exact Literal.parse_of_readNode (by decide) (by decide)
        (Literal.readNode_renderVector hFits) rfl
  | @matrix g hWellFormed hFits =>
      have hSome : g.rows ≠ [] := by
        intro hNil
        exact hRows (congrArg List.length hNil)
      have hRead :=
        Literal.readNode_renderMatrix hSome
          (fun row hRow z hz =>
            hFits z (List.mem_flatten.2 ⟨row, hRow, hz⟩))
      rw [← Option.some.inj hRender]
      apply Literal.parse_of_readNode (by decide) (by decide)
        hRead
      simp only [Literal.Node.toValue,
        Literal.ofRows_rows hSome hWellFormed]

end Value

end StackCalc

------------------------------------------------------------
-- Matrices Without Rows
------------------------------------------------------------

namespace StackCalc

namespace Value

/- A matrix without rows is written as an empty vector. -/
theorem parse_render_rowless
    (w : Nat) :
    (matrix (.ints ⟨w, []⟩)).render = some "[]".toList ∧
      Literal.parse "[]".toList =
        .ok (vector (.ints [])) :=
  ⟨rfl, rfl⟩

/- Transposing a matrix without columns leaves no rows. -/
theorem dispatch_transpose_columnless
    (depth w : Nat)
    (s : Stack) :
    Run.dispatch (depth + 1) "TRANSP".toList
        (matrix (.ints ⟨0, List.replicate w []⟩) :: s) =
      .ok (matrix (.ints ⟨w, []⟩) :: s) := by
  refine (Run.dispatch_name (.unary .transpose) depth _).trans ?_
  simp [Run.perform, Run.unary, NumMatrix.transpose,
    Grid.transpose, Grid.columns, Grid.height]

/- Products of a matrix without rows have none. -/
theorem apply_multiply_rowless
    (w : Nat) :
    Binary.apply .multiply (matrix (.ints ⟨0, []⟩))
        (matrix (.ints ⟨w, []⟩)) =
      .ok (matrix (.ints ⟨w, []⟩)) :=
  rfl

/-
  A plain value is read back from its text exactly if it is
  no matrix without rows. Such a matrix, which transposing
  and multiplying can give, is read back as the empty
  vector.
-/
theorem parse_render_iff_not_isRowless
    {v : Value}
    (hPlain : v.IsPlain) :
    ((∃ t, v.render = some t ∧ Literal.parse t = .ok v) ↔
        ¬ v.IsRowless) ∧
      (v.IsRowless →
        (v.render = some "[]".toList ∧
          Literal.parse "[]".toList =
            .ok (vector (.ints []))) ∧
        (∃ m, (matrix m).IsPlain ∧
          ∀ depth s,
            Run.dispatch (depth + 1) "TRANSP".toList
                (matrix m :: s) =
              .ok (v :: s)) ∧
        ∃ a b, (matrix a).IsPlain ∧ (matrix b).IsPlain ∧
          Binary.apply .multiply (matrix a) (matrix b) =
            .ok v) := by
  constructor
  · constructor
    · rintro ⟨t, hRender, hParse⟩ hRowless
      rcases eq_matrix_of_isRowless hPlain hRowless with
        ⟨w, rfl⟩
      rcases parse_render_rowless w with ⟨hText, hVector⟩
      rw [hText] at hRender
      rw [← Option.some.inj hRender, hVector] at hParse
      simp at hParse
    · intro hRows
      rcases exists_render_of_isPlain hPlain with
        ⟨t, hRender⟩
      exact ⟨t, hRender, parse_of_render hPlain hRows hRender⟩
  · intro hRowless
    rcases eq_matrix_of_isRowless hPlain hRowless with
      ⟨w, rfl⟩
    refine ⟨parse_render_rowless w, ?_, ?_⟩
    · refine ⟨.ints ⟨0, List.replicate w []⟩, ?_, ?_⟩
      · apply IsPlain.matrix
        · intro row hRow
          rw [List.eq_of_mem_replicate hRow]
          rfl
        · intro z hz
          simp [Grid.toList] at hz
      · intro depth s
        exact dispatch_transpose_columnless depth w s
    · exact ⟨.ints ⟨0, []⟩, .ints ⟨w, []⟩,
        .matrix (by decide) (by decide), hPlain,
        apply_multiply_rowless w⟩

/- The extremes of storage are read back, in two rows. -/
theorem parse_render_extremes :
    (matrix (.ints ⟨2,
        [ [-9223372036854775808, 0],
          [9223372036854775807, -1] ]⟩)).IsPlain ∧
      ∃ t,
        (matrix (.ints ⟨2,
            [ [-9223372036854775808, 0],
              [9223372036854775807, -1] ]⟩)).render =
            some t ∧
          Literal.parse t =
            .ok (matrix (.ints ⟨2,
              [ [-9223372036854775808, 0],
                [9223372036854775807, -1] ]⟩)) := by
  have hPlain :
      (matrix (.ints ⟨2,
        [ [-9223372036854775808, 0],
          [9223372036854775807, -1] ]⟩)).IsPlain :=
    .matrix (by decide) (by decide)
  have hRows :
      ¬ (matrix (.ints ⟨2,
        [ [-9223372036854775808, 0],
          [9223372036854775807, -1] ]⟩)).IsRowless := by
    simp only [IsRowless]
    decide
  exact ⟨hPlain,
    (parse_render_iff_not_isRowless hPlain).1.2 hRows⟩

end Value

end StackCalc

import Mathlib.Data.List.Forall2
import StackCalc.Proofs.ReadValues

/-
  Literals of rows against literals of the same numbers
  without rows.

  `Reader.Decodes` says what a reader makes of every item
  that a relation allows, also of the items it rejects. So
  it carries over to arrays as an equation, whatever the
  length of the numbers. Each row is gathered before it
  meets the others. A row of integers is therefore never
  saved by a double in another row; that apart, rows and
  flat numbers come out alike.

  Main declarations:
    * `Reader.Decodes.toOption_array`
    * `Grammar.WrittenNumber`
    * `Grammar.FitAlone`
    * `Grammar.exists_gathers_iff`
    * `Grammar.gathers_listed`
    * `Literal.parse_numbers_eq_ok_iff`
    * `Literal.parse_rows_eq_ok_iff`
    * `Literal.parse_nested_iff_parse_flat`
-/

------------------------------------------------------------
-- Reading Written Items
------------------------------------------------------------

namespace StackCalc

namespace Reader

open Grammar

variable {α β : Type}

/- What items are read, whatever the complaints. -/
theorem toOption_items
    (item : Reader α)
    (t : Text) :
    (items item t).toOption =
      (item.read (Text.dropBlanks t)).toOption.bind fun p =>
        match Text.dropBlanks p.2 with
        | ',' :: r =>
            (items item r).toOption.map fun q =>
              (p.1 :: q.1, q.2)
        | ']' :: r => some ([p.1], r)
        | _ => none := by
  rw [items]
  split
  case h_1 e hError =>
    rw [hError]
    rfl
  case h_2 a r hItem =>
    have hRead :
        (item.read (Text.dropBlanks t)).toOption =
          some (a, r) := by
      rw [hItem]
      rfl
    rw [hRead, Option.bind_some]
    split
    case h_1 r' hComma =>
      simp only [hComma]
      cases items item r' with
      | error e =>
          rfl
      | ok q =>
          rfl
    case h_2 r' hClose =>
      simp only [hClose]
      rfl
    case h_3 hNotComma hNotClose =>
      split
      · rename_i r' hComma
        exact absurd hComma (hNotComma r')
      · rename_i r' hClose
        exact absurd hClose (hNotClose r')
      · rfl

/-
  A reader decodes what a relation says is written: where a
  literal may end after it, it is read as what `f` gives,
  or not at all.
-/
structure Decodes
    (item : Reader β)
    (P : Text → α → Prop)
    (f : α → Option β) : Prop where
  start : StartsItems P
  read :
    ∀ {l rest : Text} {a : α}, P l a →
      isBoundary rest = true →
        (item.read (l ++ rest)).toOption =
          (f a).map fun b => (b, rest)

variable
  {item : Reader β}
  {P : Text → α → Prop}
  {f : α → Option β}

/- Listed items are read one by one. -/
theorem Decodes.toOption_items_listed
    {l : Text}
    {as : List α}
    (hDecodes : Decodes item P f)
    (h : Listed P l as)
    (r : Text) :
    (items item (l ++ ']' :: r)).toOption =
      (as.mapM f).map fun bs => (bs, r) := by
  induction h with
  | @last front l back a hFront hItem hBack =>
      have hRest :
          Text.dropBlanks (back ++ ']' :: r) = ']' :: r := by
        rw [hBack.dropBlanks_append]
        exact Text.dropBlanks_cons (by decide)
      rw [toOption_items, List.append_assoc,
        List.append_assoc,
        hDecodes.start.dropBlanks_append hFront hItem,
        hDecodes.read hItem (hBack.isBoundary_append rfl)]
      cases hf : f a with
      | none =>
          simp [hf]
      | some b =>
          simp [hf, hRest]
  | @more front l back t a as hFront hItem hBack hMore ih =>
      have hRest :
          Text.dropBlanks (back ++ ',' :: (t ++ ']' :: r)) =
            ',' :: (t ++ ']' :: r) := by
        rw [hBack.dropBlanks_append]
        exact Text.dropBlanks_cons (by decide)
      rw [toOption_items, List.append_assoc,
        List.append_assoc, List.append_assoc,
        List.cons_append,
        hDecodes.start.dropBlanks_append hFront hItem,
        hDecodes.read hItem (hBack.isBoundary_append rfl)]
      cases hf : f a with
      | none =>
          simp [hf]
      | some b =>
          cases hMap : as.mapM f with
          | none =>
              simp [hf, hRest, ih, hMap]
          | some bs =>
              simp [hf, hRest, ih, hMap]

/- So are bracketed ones. -/
theorem Decodes.toOption_array
    {l : Text}
    {as : List α}
    (hDecodes : Decodes item P f)
    (h : Bracketed P l as)
    (r : Text) :
    ∃ t, l = '[' :: t ∧
      (array item (t ++ r)).toOption =
        (as.mapM f).map fun bs => (bs, r) := by
  cases h with
  | @empty blanks hBlanks =>
      refine ⟨blanks ++ [']'], rfl, ?_⟩
      have hClose :
          Text.dropBlanks (blanks ++ ']' :: r) = ']' :: r := by
        rw [hBlanks.dropBlanks_append]
        exact Text.dropBlanks_cons (by decide)
      simp [array, hClose, Except.toOption]
  | @items t as hItems =>
      refine ⟨t ++ [']'], rfl, ?_⟩
      have hRead := hDecodes.toOption_items_listed hItems r
      rcases hDecodes.start.dropBlanks_listed hItems
          (']' :: r) with ⟨c, r', hStart, hClose⟩
      rw [List.append_assoc, List.cons_append,
        List.nil_append]
      unfold array
      split
      · rename_i r'' hDrop
        rw [hStart] at hDrop
        exact absurd (List.cons.inj hDrop).1 hClose
      · exact hRead

end Reader

end StackCalc

------------------------------------------------------------
-- Written Numbers
------------------------------------------------------------

namespace StackCalc

namespace Grammar

/- A number with a text that spells it. -/
structure WrittenNumber where
  text : Text
  number : Number
  spells : SpellsNumber text number

/- A text is that of a written number. -/
def Writes
    (l : Text)
    (w : WrittenNumber) : Prop :=
  l = w.text

theorem startsItems_writes :
    StartsItems Writes := by
  rintro l w rfl
  rcases exists_eq_cons_of_startsPlain
      w.spells.startsPlain with
    ⟨c, r, hCons, hBlank, -, hClose, -⟩
  exact ⟨c, r, hCons, hBlank, hClose⟩

namespace WrittenNumber

/- Whether a number is short enough; all doubles are. -/
def isShort (w : WrittenNumber) : Bool :=
  w.number.isFloat ||
    (w.text.filter Char.isDigit).length ≤ Decimal.maxDigits

/- The number that is read. -/
def read? (w : WrittenNumber) : Option Number :=
  if w.isShort then some w.number else none

theorem read?_eq_some_iff
    {w : WrittenNumber}
    {n : Number} :
    w.read? = some n ↔ w.isShort = true ∧ w.number = n := by
  simp [read?]

theorem toOption_read
    (w : WrittenNumber)
    {rest : Text}
    (hEnd : isBoundary rest = true) :
    (Scalar.read (w.text ++ rest)).toOption =
      w.read?.map fun n => (.number n, rest) := by
  rcases w with ⟨l, n, hSpells⟩
  cases n with
  | integer z =>
      simp only [read?, isShort, Number.isFloat,
        Bool.false_or, decide_eq_true_eq]
      rw [read_of_spellsInteger hSpells hEnd]
      split
      · rfl
      · rfl
  | float x =>
      rw [read_of_spellsFloat hSpells hEnd]
      rfl

/- The integer that digits write. -/
def ofDigits
    (ds : Text)
    (h : IsRun ds) : WrittenNumber :=
  ⟨ds, .integer (Decimal.natValue ds),
    .integer .none (.run h)⟩

/- The double that is written 0.5. -/
def half : WrittenNumber :=
  ⟨"0.5".toList,
    .float (Numeral.toFloat ⟨false, ['0'], some ['5'], none⟩),
    .float
      (.parts .none (.run (by decide : IsRun ['0']))
        (.some (.run (by decide : IsRun ['5']))) .none)
      (.inl (by decide))⟩

/- The first character tells a number from an array. -/
theorem exists_eq_cons
    (w : WrittenNumber) :
    ∃ c r, w.text = c :: r ∧ c ≠ '[' := by
  rcases exists_eq_cons_of_startsPlain
      w.spells.startsPlain with
    ⟨c, r, hCons, -, hOpen, -⟩
  exact ⟨c, r, hCons, hOpen⟩

end WrittenNumber

end Grammar

end StackCalc

------------------------------------------------------------
-- Numbers And Rows In Literals
------------------------------------------------------------

namespace StackCalc

namespace Literal

open Grammar

variable {α β γ : Type}

theorem mapM_map_option
    (f : α → Option β)
    (g : β → γ)
    (as : List α) :
    (as.mapM fun a => (f a).map g) =
      (as.mapM f).map (List.map g) := by
  induction as with
  | nil =>
      rfl
  | cons a as ih =>
      rw [List.mapM_cons, List.mapM_cons, ih]
      cases f a with
      | none =>
          rfl
      | some b =>
          cases as.mapM f with
          | none =>
              rfl
          | some bs =>
              rfl

theorem readRowItem_written
    (w : WrittenNumber)
    (rest : Text) :
    readRowItem (w.text ++ rest) =
      Scalar.read (w.text ++ rest) := by
  rcases w.exists_eq_cons with ⟨c, r, hCons, hOpen⟩
  rw [hCons, List.cons_append]
  unfold readRowItem
  split
  · rename_i r' hStart
    exact absurd (List.cons.inj hStart).1 hOpen
  · rfl

/- The numbers of a row are decoded. -/
theorem decodes_rowItem :
    rowItem.Decodes Writes fun w =>
      w.read?.map Scalar.number where
  start := startsItems_writes
  read := by
    rintro l rest w rfl hEnd
    show (readRowItem (w.text ++ rest)).toOption = _
    rw [readRowItem_written, w.toOption_read hEnd,
      Option.map_map]
    rfl

theorem toOption_readItem_written
    (w : WrittenNumber)
    (rest : Text) :
    (readItem (w.text ++ rest)).toOption =
      (Scalar.read (w.text ++ rest)).toOption.map fun p =>
        (.scalar p.1, p.2) := by
  rcases w.exists_eq_cons with ⟨c, r, hCons, hOpen⟩
  rw [hCons, List.cons_append]
  unfold readItem
  split
  · rename_i r' hStart
    exact absurd (List.cons.inj hStart).1 hOpen
  · cases Scalar.read (c :: (r ++ rest)) with
    | error e =>
        rfl
    | ok p =>
        rfl

/- So are numbers that are no row. -/
theorem decodes_item_numbers :
    item.Decodes Writes fun w =>
      w.read?.map fun n => .scalar (.number n) where
  start := startsItems_writes
  read := by
    rintro l rest w rfl hEnd
    show (readItem (w.text ++ rest)).toOption = _
    rw [toOption_readItem_written, w.toOption_read hEnd,
      Option.map_map, Option.map_map]
    rfl

/- The vector of numbers that are written in a row. -/
def rowOf (ws : List WrittenNumber) : Option NumVector :=
  (ws.mapM WrittenNumber.read?).bind fun ns =>
    (NumVector.ofNumbers ns).toOption

theorem toOption_pack
    (ns : List Number) :
    (pack (ns.map .number)).toOption =
      (NumVector.ofNumbers ns).toOption := by
  cases hVector : NumVector.ofNumbers ns with
  | ok v =>
      rw [pack_eq_ok_iff.2
        ⟨ns, rfl, ofNumbers_eq_ok_iff.1 hVector⟩]
      rfl
  | error e =>
      cases e with
      | _ =>
          simp only [pack, numbers?_eq_some_iff.2 rfl,
            hVector, Except.toOption]

theorem toOption_readItem_row
    (t : Text) :
    (readItem ('[' :: t)).toOption =
      (rowItem.array t).toOption.bind fun p =>
        (pack p.1).toOption.map fun v => (.row v, p.2) := by
  simp only [readItem, readRow]
  cases rowItem.array t with
  | error e =>
      rfl
  | ok p =>
      simp only [Except.toOption, Option.bind_some]
      cases pack p.1 with
      | error e =>
          rfl
      | ok v =>
          rfl

/- Rows are decoded. -/
theorem decodes_item_rows :
    item.Decodes (Bracketed Writes) fun ws =>
      (rowOf ws).map Item.row where
  start := by
    rintro l ws hRow
    rcases hRow.exists_eq_cons with ⟨r, hCons⟩
    exact ⟨'[', r, hCons, by decide⟩
  read := by
    intro l rest ws hRow hEnd
    rcases decodes_rowItem.toOption_array hRow rest with
      ⟨t, rfl, hArray⟩
    show (readItem ('[' :: (t ++ rest))).toOption = _
    rw [toOption_readItem_row, hArray, mapM_map_option,
      rowOf]
    cases ws.mapM WrittenNumber.read? with
    | none =>
        rfl
    | some ns =>
        simp only [Option.map_some, Option.bind_some,
          toOption_pack, Option.map_map]
        rfl

end Literal

end StackCalc

------------------------------------------------------------
-- Parsed Arrays
------------------------------------------------------------

namespace StackCalc

namespace Literal

open Grammar

variable {ε α : Type}

/- What an array alone in its text is parsed as. -/
theorem parse_array_eq_ok_iff
    {t : Text}
    {o : Option (List Item)}
    {u : Value}
    (h :
      (item.array t).toOption = o.map fun is => (is, [])) :
    parse ('[' :: t) = .ok u ↔
      ∃ is node, o = some is ∧ packItems is = .ok node ∧
        node.toValue = .ok u := by
  have hQuoted : Text.isQuoted ('[' :: t) = false := by
    simp [Text.isQuoted, Text.isWrapped]
  have hDrop : Text.dropBlanks ('[' :: t) = '[' :: t :=
    Text.dropBlanks_cons (by decide)
  have hNil : Text.dropBlanks [] = [] := rfl
  simp only [parse, hQuoted, Bool.false_eq_true, if_false,
    List.cons_ne_nil, readWhole, hDrop, readNode]
  cases hRead : item.array t with
  | error e =>
      rw [hRead] at h
      have hNone : o = none := by
        simpa [Except.toOption] using h
      simp [hNone]
  | ok p =>
      rw [hRead] at h
      rcases Option.map_eq_some_iff.1 h.symm with
        ⟨is, rfl, rfl⟩
      cases hPack : packItems is with
      | error e =>
          simp [hPack]
      | ok node =>
          cases hValue : node.toValue with
          | error f =>
              simp [hPack, hNil, hValue]
          | ok v =>
              simp [hPack, hNil, hValue]

theorem toOption_eq_some_iff
    {x : Except ε α}
    {a : α} :
    x.toOption = some a ↔ x = .ok a := by
  cases x with
  | _ =>
      simp [Except.toOption]

/- Where numbers are read they are those written. -/
theorem mapM_read?_eq_some_iff
    {ws : List WrittenNumber}
    {ns : List Number} :
    ws.mapM WrittenNumber.read? = some ns ↔
      (∀ w ∈ ws, w.isShort = true) ∧
        ws.map WrittenNumber.number = ns := by
  rw [mapM_eq_some_iff]
  induction ws generalizing ns with
  | nil =>
      cases ns with
      | _ =>
          simp
  | cons w ws ih =>
      cases ns with
      | nil =>
          simp
      | cons n ns =>
          rw [List.map_cons, List.map_cons, List.map_cons,
            List.cons.injEq, List.cons.injEq, ih,
            WrittenNumber.read?_eq_some_iff,
            List.forall_mem_cons, and_and_and_comm]

/- A row is written by numbers that are all short. -/
theorem rowOf_eq_some_iff
    {ws : List WrittenNumber}
    {v : NumVector} :
    rowOf ws = some v ↔
      (∀ w ∈ ws, w.isShort = true) ∧
        Gathers (ws.map WrittenNumber.number) v := by
  rw [rowOf, Option.bind_eq_some_iff]
  simp only [toOption_eq_some_iff, ofNumbers_eq_ok_iff,
    mapM_read?_eq_some_iff, and_assoc, exists_and_left,
    exists_eq_left']

theorem packItems_numbers_eq_ok_iff
    {ns : List Number}
    {node : Node} :
    packItems (ns.map fun n => .scalar (.number n)) =
        .ok node ↔
      ∃ v, Gathers ns v ∧ node = .vector v := by
  constructor
  · intro h
    rcases packItems_eq_ok_iff.1 h with
      ⟨ns', v, hSame, hGathers, rfl⟩ | ⟨vs, hSome, hSame, rfl⟩
    · have hNumbers : ns = ns' :=
        List.map_injective_iff.2
          (fun n n' hItem => by simpa using hItem) hSame
      exact ⟨v, hNumbers ▸ hGathers, rfl⟩
    · rcases List.exists_cons_of_ne_nil hSome with
        ⟨v, vs, rfl⟩
      cases ns with
      | _ =>
          simp at hSame
  · rintro ⟨v, hGathers, rfl⟩
    exact packItems_eq_ok_iff.2
      (.inl ⟨ns, v, rfl, hGathers, rfl⟩)

theorem packItems_map_row
    {vs : List NumVector}
    (h : vs ≠ []) :
    packItems (vs.map .row) = .ok (.rows vs) :=
  packItems_eq_ok_iff.2 (.inr ⟨vs, h, rfl, rfl⟩)

/- Bracketed numbers are parsed if they are a row. -/
theorem parse_numbers_eq_ok_iff
    {t : Text}
    {ws : List WrittenNumber}
    {u : Value}
    (h : Bracketed Writes t ws) :
    parse t = .ok u ↔
      ∃ v, rowOf ws = some v ∧ u = .vector v := by
  rcases decodes_item_numbers.toOption_array h [] with
    ⟨r, rfl, hArray⟩
  rw [List.append_nil, mapM_map_option] at hArray
  rw [parse_array_eq_ok_iff hArray]
  constructor
  · rintro ⟨is, node, hItems, hPack, hValue⟩
    rcases Option.map_eq_some_iff.1 hItems with
      ⟨ns, hNumbers, rfl⟩
    rcases mapM_read?_eq_some_iff.1 hNumbers with
      ⟨hShort, rfl⟩
    rcases packItems_numbers_eq_ok_iff.1 hPack with
      ⟨v, hGathers, rfl⟩
    exact ⟨v, rowOf_eq_some_iff.2 ⟨hShort, hGathers⟩,
      (Except.ok.inj hValue).symm⟩
  · rintro ⟨v, hRow, rfl⟩
    rcases rowOf_eq_some_iff.1 hRow with ⟨hShort, hGathers⟩
    refine ⟨_, .vector v, ?_,
      packItems_numbers_eq_ok_iff.2 ⟨v, hGathers, rfl⟩, rfl⟩
    rw [mapM_read?_eq_some_iff.2 ⟨hShort, rfl⟩]
    rfl

theorem ne_nil_of_mapM
    {rows : List (List WrittenNumber)}
    {vs : List NumVector}
    (hSome : rows ≠ [])
    (h : rows.mapM rowOf = some vs) :
    vs ≠ [] := by
  rintro rfl
  exact hSome (List.map_eq_nil_iff.1 (mapM_eq_some_iff.1 h))

/- Bracketed rows are parsed if they stack up. -/
theorem parse_rows_eq_ok_iff
    {t : Text}
    {rows : List (List WrittenNumber)}
    {u : Value}
    (hSome : rows ≠ [])
    (h : Bracketed (Bracketed Writes) t rows) :
    parse t = .ok u ↔
      ∃ vs m, rows.mapM rowOf = some vs ∧ Stacks vs m ∧
        u = .matrix m := by
  rcases decodes_item_rows.toOption_array h [] with
    ⟨r, rfl, hArray⟩
  rw [List.append_nil, mapM_map_option] at hArray
  rw [parse_array_eq_ok_iff hArray]
  constructor
  · rintro ⟨is, node, hItems, hPack, hValue⟩
    rcases Option.map_eq_some_iff.1 hItems with
      ⟨vs, hVectors, rfl⟩
    have hNe := ne_nil_of_mapM hSome hVectors
    rw [packItems_map_row hNe] at hPack
    rw [← Except.ok.inj hPack] at hValue
    simp only [Node.toValue] at hValue
    split at hValue
    case h_1 m hMatrix =>
      exact ⟨vs, m, hVectors,
        (ofRows_eq_ok_iff hNe).1 hMatrix,
        (Except.ok.inj hValue).symm⟩
    case h_2 =>
      simp at hValue
  · rintro ⟨vs, m, hVectors, hStacks, rfl⟩
    have hNe : vs ≠ [] := ne_nil_of_stacks hStacks
    refine ⟨_, .rows vs, ?_, packItems_map_row hNe, ?_⟩
    · rw [hVectors]
      rfl
    · simp only [Node.toValue,
        (ofRows_eq_ok_iff hNe).2 hStacks]

end Literal

end StackCalc

------------------------------------------------------------
-- Rows Of Numbers
------------------------------------------------------------

namespace StackCalc

namespace NumMatrix

/- The entries of a matrix, row after row, as a vector. -/
def listed : NumMatrix → NumVector
  | .ints g => .ints g.toList
  | .floats g => .floats g.toList

end NumMatrix

namespace Grammar

/-
  Numbers that no other number has to turn into doubles: a
  double is among them, or all can be stored.
-/
def FitAlone (ns : List Number) : Prop :=
  (∃ x, .float x ∈ ns) ∨
    ∀ z, .integer z ∈ ns → Storage.fits z = true

variable
  {ns : List Number}
  {v : NumVector}

theorem Gathers.unique
    {w : NumVector}
    (hv : Gathers ns v)
    (hw : Gathers ns w) :
    v = w :=
  Except.ok.inj
    ((Literal.ofNumbers_eq_ok_iff.2 hv).symm.trans
      (Literal.ofNumbers_eq_ok_iff.2 hw))

theorem Gathers.length_eq
    (h : Gathers ns v) :
    v.length = ns.length := by
  cases h with
  | ints hFits =>
      exact (List.length_map _).symm
  | floats hFloat hRange =>
      simpa [NumVector.length] using
        (congrArg List.length hRange).symm

/- A vector holds doubles if a double was among the numbers. -/
theorem Gathers.isFloats_iff
    (h : Gathers ns v) :
    v.isFloats = true ↔ ∃ x, .float x ∈ ns := by
  cases h with
  | ints hFits =>
      simp [NumVector.isFloats]
  | floats hFloat hRange =>
      simpa [NumVector.isFloats] using hFloat

/- The doubles of a vector are those of its numbers. -/
theorem Gathers.map_toFloat?
    (h : Gathers ns v) :
    ns.map Number.toFloat? = v.toFloats.map some := by
  cases h with
  | @ints zs hFits =>
      show (zs.map Number.integer).map Number.toFloat? =
        (zs.map Float.ofInt).map some
      rw [List.map_map, List.map_map]
      exact List.map_congr_left fun z hz =>
        floatOfInt?_of_fits (hFits z hz)
  | floats hFloat hRange =>
      exact hRange

/-
  Numbers go into one row exactly if all are within the
  range of doubles and they fit alone.
-/
theorem exists_gathers_iff :
    (∃ v, Gathers ns v) ↔
      (∀ n ∈ ns, (Number.toFloat? n).isSome = true) ∧
        FitAlone ns := by
  constructor
  · rintro ⟨v, h⟩
    refine ⟨Literal.exists_mapM_eq_some_iff.1
      ⟨_, Literal.mapM_eq_some_iff.2 h.map_toFloat?⟩, ?_⟩
    cases h with
    | ints hFits =>
        exact .inr (by simpa using hFits)
    | floats hFloat hRange =>
        exact .inl hFloat
  · rintro ⟨hRange, hAlone⟩
    by_cases hFloat : ∃ x, .float x ∈ ns
    · rcases Literal.exists_mapM_eq_some_iff.2 hRange with
        ⟨xs, hDoubles⟩
      exact ⟨.floats xs, .floats hFloat
        (Literal.mapM_eq_some_iff.1 hDoubles)⟩
    · have hIntegers :
          ns = (Number.integers ns).map .integer := by
        apply Literal.eq_map_integers
        rwa [Bool.eq_false_iff, Ne, Literal.any_isFloat_iff]
      rw [hIntegers]
      refine ⟨_, .ints ?_⟩
      intro z hz
      apply hAlone.resolve_left hFloat
      rw [hIntegers]
      exact List.mem_map_of_mem hz

theorem fitAlone_integer_iff
    {z : Int} :
    FitAlone [.integer z] ↔ Storage.fits z = true := by
  simp [FitAlone]

theorem FitAlone.flatten
    {nss : List (List Number)}
    (h : ∀ ns ∈ nss, FitAlone ns) :
    FitAlone nss.flatten := by
  by_cases hFloat : ∃ ns ∈ nss, ∃ x, .float x ∈ ns
  · rcases hFloat with ⟨ns, hns, x, hx⟩
    exact .inl ⟨x, List.mem_flatten.2 ⟨ns, hns, hx⟩⟩
  · right
    intro z hz
    rcases List.mem_flatten.1 hz with ⟨ns, hns, hz⟩
    refine (h ns hns).resolve_left ?_ z hz
    rintro ⟨x, hx⟩
    exact hFloat ⟨ns, hns, x, hx⟩

variable
  {nss : List (List Number)}
  {vs : List NumVector}
  {m : NumMatrix}

theorem length_of_forall₂
    {width : Nat}
    (h : List.Forall₂ Gathers nss vs)
    (hWidth : ∀ ns ∈ nss, ns.length = width) :
    ∀ v ∈ vs, v.length = width := by
  induction h with
  | nil =>
      simp
  | cons hRow hMore ih =>
      rw [List.forall_mem_cons] at hWidth ⊢
      exact ⟨hRow.length_eq.trans hWidth.1, ih hWidth.2⟩

/- Rows of integers go into one row of integers. -/
theorem gathers_flatten_ints
    {rows : List (List Int)}
    (h : List.Forall₂ Gathers nss (rows.map .ints)) :
    Gathers nss.flatten (.ints rows.flatten) := by
  rw [List.forall₂_map_right_iff] at h
  induction h with
  | nil =>
      have hNone : Gathers ([].map .integer) (.ints []) :=
        .ints (by simp)
      exact hNone
  | @cons ns zs nss rows hRow hMore ih =>
      -- The index must be a variable for the cases below.
      generalize hFlat : nss.flatten = ms at ih
      cases hRow with
      | ints hFits =>
          cases ih with
          | ints hFitsMore =>
              rw [List.flatten_cons, List.flatten_cons,
                hFlat, ← List.map_append]
              exact .ints (List.forall_mem_append.2
                ⟨hFits, hFitsMore⟩)

/- The doubles of several rows are those of their numbers. -/
theorem map_toFloat?_flatten
    (h : List.Forall₂ Gathers nss vs) :
    nss.flatten.map Number.toFloat? =
      (vs.map Entries.toFloats).flatten.map some := by
  induction h with
  | nil =>
      rfl
  | cons hRow hMore ih =>
      rw [List.flatten_cons, List.map_cons,
        List.flatten_cons, List.map_append,
        List.map_append, ih, hRow.map_toFloat?]

/- A double among the rows is one among the numbers. -/
theorem exists_float_mem_flatten
    (h : List.Forall₂ Gathers nss vs)
    (hFloats : ∃ v ∈ vs, v.isFloats = true) :
    ∃ x, .float x ∈ nss.flatten := by
  induction h with
  | nil =>
      simp at hFloats
  | @cons ns v nss vs hRow hMore ih =>
      rw [List.exists_mem_cons_iff] at hFloats
      simp only [List.flatten_cons, List.mem_append]
      rcases hFloats with hFirst | hLater
      · rcases hRow.isFloats_iff.1 hFirst with ⟨x, hx⟩
        exact ⟨x, .inl hx⟩
      · rcases ih hLater with ⟨x, hx⟩
        exact ⟨x, .inr hx⟩

/- Rows that stack up go into one row, in their order. -/
theorem gathers_listed
    (hRows : List.Forall₂ Gathers nss vs)
    (hStacks : Stacks vs m) :
    Gathers nss.flatten m.listed := by
  cases hStacks with
  | ints hSome hWidth =>
      exact gathers_flatten_ints hRows
  | floats hFloats hWidth =>
      exact .floats (exists_float_mem_flatten hRows hFloats)
        (map_toFloat?_flatten hRows)

/- Rows of one length stack up. -/
theorem exists_stacks
    {width : Nat}
    (hSome : vs ≠ [])
    (hWidth : ∀ v ∈ vs, v.length = width) :
    ∃ m, Stacks vs m := by
  by_cases hFloats : vs.any NumVector.isFloats = true
  · exact ⟨_, .floats (List.any_eq_true.1 hFloats) hWidth⟩
  · rcases Literal.exists_eq_map_ints hFloats with
      ⟨rows, rfl⟩
    exact ⟨.ints ⟨width, rows⟩, .ints (g := ⟨width, rows⟩)
      (by simpa using hSome)
      (List.forall_mem_map.1 hWidth)⟩

theorem Stacks.shape_eq
    {width : Nat}
    (h : Stacks vs m)
    (hWidth : ∀ v ∈ vs, v.length = width) :
    m.shape = ⟨vs.length, width⟩ := by
  rcases List.exists_mem_of_ne_nil _
      (Literal.ne_nil_of_stacks h) with
    ⟨v, hv⟩
  cases h with
  | @ints g hRows hWellFormed =>
      rcases List.mem_map.1 hv with ⟨row, hRow, rfl⟩
      have hGrid : g.width = width :=
        (hWellFormed row hRow).symm.trans (hWidth _ hv)
      simp [NumMatrix.shape, NumMatrix.height, Grid.height,
        NumMatrix.width, hGrid]
  | floats hFloats hWidths =>
      have hSame := (hWidths v hv).symm.trans (hWidth v hv)
      simp [NumMatrix.shape, NumMatrix.height, Grid.height,
        NumMatrix.width, hSame]

end Grammar

end StackCalc

------------------------------------------------------------
-- Nested And Flat Literals
------------------------------------------------------------

namespace StackCalc

namespace Literal

open Grammar

variable
  {rows : List (List WrittenNumber)}
  {vs : List NumVector}
  {width : Nat}

/-
  Numbers are a row exactly if each is short and within the
  range of doubles, and they fit alone.
-/
theorem isSome_rowOf_iff
    {ws : List WrittenNumber} :
    (rowOf ws).isSome = true ↔
      (∀ w ∈ ws, w.isShort = true ∧
        w.number.toFloat?.isSome = true) ∧
      FitAlone (ws.map WrittenNumber.number) := by
  rw [Option.isSome_iff_exists]
  simp only [rowOf_eq_some_iff]
  rw [exists_and_left, exists_gathers_iff,
    List.forall_mem_map, ← and_assoc]
  refine and_congr_left' ⟨?_, ?_⟩
  · rintro ⟨hShort, hRange⟩ w hw
    exact ⟨hShort w hw, hRange w hw⟩
  · intro h
    exact ⟨fun w hw => (h w hw).1, fun w hw => (h w hw).2⟩

/-
  Numbers are rows one by one exactly if together they are
  one row, and each row fits alone.
-/
theorem forall_isSome_rowOf_iff :
    (∀ row ∈ rows, (rowOf row).isSome = true) ↔
      (rowOf rows.flatten).isSome = true ∧
        ∀ row ∈ rows,
          FitAlone (row.map WrittenNumber.number) := by
  simp only [isSome_rowOf_iff]
  constructor
  · intro hRows
    refine ⟨⟨?_, ?_⟩, fun row hRow => (hRows row hRow).2⟩
    · intro w hw
      rcases List.mem_flatten.1 hw with ⟨row, hRow, hw⟩
      exact (hRows row hRow).1 w hw
    · rw [List.map_flatten]
      apply FitAlone.flatten
      rw [List.forall_mem_map]
      exact fun row hRow => (hRows row hRow).2
  · rintro ⟨⟨hEach, -⟩, hAlone⟩ row hRow
    refine ⟨fun w hw => hEach w ?_, hAlone row hRow⟩
    exact List.mem_flatten.2 ⟨row, hRow, hw⟩

/- The vectors of rows gather what is written in them. -/
theorem forall₂_gathers
    (h : rows.mapM rowOf = some vs) :
    List.Forall₂ Gathers
      (rows.map (List.map WrittenNumber.number)) vs := by
  rw [mapM_eq_some_iff, ← List.forall₂_eq_eq_eq,
    List.forall₂_map_left_iff, List.forall₂_map_right_iff]
    at h
  rw [List.forall₂_map_left_iff]
  exact h.imp fun row v hRow => (rowOf_eq_some_iff.1 hRow).2

theorem length_of_mapM
    (hWidth : ∀ row ∈ rows, row.length = width)
    (h : rows.mapM rowOf = some vs) :
    ∀ v ∈ vs, v.length = width := by
  refine length_of_forall₂ (forall₂_gathers h) ?_
  rw [List.forall_mem_map]
  intro row hRow
  rw [List.length_map]
  exact hWidth row hRow

/- Rows of one length are parsed if each is a row. -/
theorem exists_parse_rows_iff
    {t : Text}
    (hSome : rows ≠ [])
    (hWidth : ∀ row ∈ rows, row.length = width)
    (h : Bracketed (Bracketed Writes) t rows) :
    (∃ u, parse t = .ok u) ↔
      ∀ row ∈ rows, (rowOf row).isSome = true := by
  constructor
  · rintro ⟨u, hParse⟩
    rcases (parse_rows_eq_ok_iff hSome h).1 hParse with
      ⟨vs, m, hVectors, -⟩
    exact exists_mapM_eq_some_iff.1 ⟨vs, hVectors⟩
  · intro hRows
    rcases exists_mapM_eq_some_iff.2 hRows with
      ⟨vs, hVectors⟩
    rcases exists_stacks (ne_nil_of_mapM hSome hVectors)
        (length_of_mapM hWidth hVectors) with
      ⟨m, hStacks⟩
    exact ⟨.matrix m, (parse_rows_eq_ok_iff hSome h).2
      ⟨vs, m, hVectors, hStacks, rfl⟩⟩

/- Numbers are parsed if they are a row. -/
theorem exists_parse_numbers_iff
    {t : Text}
    {ws : List WrittenNumber}
    (h : Bracketed Writes t ws) :
    (∃ u, parse t = .ok u) ↔ (rowOf ws).isSome = true := by
  simp only [parse_numbers_eq_ok_iff h]
  rw [exists_comm, Option.isSome_iff_exists]
  simp

/-
  Rows of one length are parsed exactly if the same numbers
  without rows are, and each row fits alone. The matrix then
  has the elements of the vector, row after row, and holds
  doubles exactly if the vector does.
-/
theorem parse_nested_iff_parse_flat
    {nested flat : Text}
    (hSome : rows ≠ [])
    (hWidth : ∀ row ∈ rows, row.length = width)
    (hNested : Bracketed (Bracketed Writes) nested rows)
    (hFlat : Bracketed Writes flat rows.flatten) :
    ((∃ v, parse nested = .ok v) ↔
      (∃ u, parse flat = .ok u) ∧
        ∀ row ∈ rows,
          FitAlone (row.map WrittenNumber.number)) ∧
    ∀ v u, parse nested = .ok v → parse flat = .ok u →
      ∃ m : NumMatrix, m.shape = ⟨rows.length, width⟩ ∧
        m.WellFormed ∧ v = .matrix m ∧
        u = .vector m.listed := by
  constructor
  · rw [exists_parse_rows_iff hSome hWidth hNested,
      exists_parse_numbers_iff hFlat]
    exact forall_isSome_rowOf_iff
  · intro v u hMatrix hVector
    rcases (parse_rows_eq_ok_iff hSome hNested).1 hMatrix with
      ⟨vs, m, hVectors, hStacks, rfl⟩
    rcases (parse_numbers_eq_ok_iff hFlat).1 hVector with
      ⟨w, hRow, rfl⟩
    have hGathers := forall₂_gathers hVectors
    -- Both are gathered from the same numbers.
    have hListed : w = m.listed := by
      apply (rowOf_eq_some_iff.1 hRow).2.unique
      rw [List.map_flatten]
      exact gathers_listed hGathers hStacks
    have hHeight : vs.length = rows.length := by
      rw [← hGathers.length_eq, List.length_map]
    have hShape :=
      hStacks.shape_eq (length_of_mapM hWidth hVectors)
    rw [hHeight] at hShape
    exact ⟨m, hShape, (wellFormed_of_parse hMatrix).wellFormed,
      rfl, by rw [hListed]⟩

/- A number before 0.5, in one array. -/
theorem bracketed_half
    (w : WrittenNumber) :
    Bracketed Writes ('[' :: (w.text ++ ", 0.5]".toList))
      [w, .half] := by
  have hLeft : Writes w.text w := rfl
  have hRight : Writes "0.5".toList .half := rfl
  have hNone : IsBlanks [] := by decide
  have hBlank : IsBlanks [' '] := by decide
  simpa using Bracketed.items
    (.more hNone hLeft hNone (.last hBlank hRight hNone))

/- A number and 0.5 in rows of their own. -/
theorem bracketed_rows_half
    (w : WrittenNumber) :
    Bracketed (Bracketed Writes)
      ('[' :: '[' :: (w.text ++ "], [0.5]]".toList))
      [[w], [.half]] := by
  have hNone : IsBlanks [] := by decide
  have hBlank : IsBlanks [' '] := by decide
  have hRow :
      ∀ w : WrittenNumber,
        Bracketed Writes ('[' :: (w.text ++ [']'])) [w] := by
    intro w
    have hWrites : Writes w.text w := rfl
    simpa using Bracketed.items (.last hNone hWrites hNone)
  have hLast : Bracketed Writes "[0.5]".toList [.half] :=
    hRow .half
  simpa using Bracketed.items
    (.more hNone (hRow w) hNone (.last hBlank hLast hNone))

theorem length_rows_half
    (w : WrittenNumber) :
    ∀ row ∈ [[w], [.half]], row.length = 1 := by
  simp

/- The array is parsed if the number has a double. -/
theorem exists_parse_half
    (w : WrittenNumber)
    (hShort : w.isShort = true)
    (hRange : w.number.toFloat?.isSome = true) :
    ∃ u, parse ('[' :: (w.text ++ ", 0.5]".toList)) =
      .ok u := by
  have hFloat :
      WrittenNumber.half.number ∈
        [w, .half].map WrittenNumber.number := by
    simp
  rw [exists_parse_numbers_iff (bracketed_half w),
    isSome_rowOf_iff, List.forall_mem_cons,
    List.forall_mem_singleton]
  exact ⟨⟨⟨hShort, hRange⟩, rfl, rfl⟩, .inl ⟨_, hFloat⟩⟩

/- One and 0.5 as rows and without rows. -/
theorem parse_nested_iff_parse_flat_mixed :
    ∃ m : NumMatrix, m.shape = ⟨2, 1⟩ ∧ m.WellFormed ∧
      parse "[[1], [0.5]]".toList = .ok (.matrix m) ∧
      parse "[1, 0.5]".toList = .ok (.vector m.listed) := by
  have hRange : (floatOfInt? 1).isSome = true := by
    rw [floatOfInt?_of_fits (by decide)]
    rfl
  have hAlone :
      ∀ row ∈ [[WrittenNumber.ofDigits ['1'] (by decide)],
          [.half]],
        FitAlone (row.map WrittenNumber.number) := by
    rw [List.forall_mem_cons, List.forall_mem_singleton]
    exact ⟨fitAlone_integer_iff.2 (by decide),
      .inl ⟨_, List.mem_singleton.2 rfl⟩⟩
  rcases parse_nested_iff_parse_flat
      (List.cons_ne_nil _ _) (length_rows_half _)
      (bracketed_rows_half _) (bracketed_half _) with
    ⟨hAccepted, hSame⟩
  rcases exists_parse_half (.ofDigits ['1'] (by decide))
      (by decide) hRange with
    ⟨u, hVector⟩
  rcases hAccepted.2 ⟨⟨u, hVector⟩, hAlone⟩ with
    ⟨v, hMatrix⟩
  rcases hSame v u hMatrix hVector with
    ⟨m, hShape, hWellFormed, rfl, rfl⟩
  exact ⟨m, hShape, hWellFormed, hMatrix, hVector⟩

/-
  The least integer that cannot be stored may stand beside
  a double, but in no row of its own.
-/
theorem parse_nested_beyondStorage :
    (∃ u, parse "[9223372036854775808, 0.5]".toList =
      .ok u) ∧
    ¬ ∃ v, parse "[[9223372036854775808], [0.5]]".toList =
      .ok v := by
  have hRun : IsRun "9223372036854775808".toList := by
    decide
  constructor
  · have hFinite :
        (Float.ofInt 9223372036854775808).isInf = false :=
      Double.Within.isInf (Double.isBounded_ofNat (le_refl _))
    refine exists_parse_half (.ofDigits _ hRun) rfl ?_
    show (floatOfInt? 9223372036854775808).isSome = true
    simp [floatOfInt?, hFinite]
  · intro hAccepted
    have hRows :=
      (exists_parse_rows_iff (List.cons_ne_nil _ _)
        (length_rows_half (.ofDigits _ hRun))
        (bracketed_rows_half _)).1 hAccepted
    have hAlone :=
      (isSome_rowOf_iff.1 (List.forall_mem_cons.1 hRows).1).2
    exact absurd (fitAlone_integer_iff.1 hAlone) (by decide)

end Literal

end StackCalc

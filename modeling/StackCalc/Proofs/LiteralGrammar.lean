import StackCalc.Proofs.NumberGrammar
import StackCalc.Proofs.RoundTrip

/-
  The grammar of literals, and that exactly its texts are
  read.

  An array is a bracketed list of items with blanks around
  each. `Reader.Reads` says that a reader of items takes
  off exactly what a relation says; it carries over from
  the items to the array, and so from scalars to rows and
  from rows to matrices.

  Main declarations:
    * `Grammar.Bracketed`
    * `Grammar.Gathers`
    * `Grammar.Stacks`
    * `Grammar.SpellsLiteral`
    * `Reader.Reads.bracketed_of_array`
    * `Reader.Reads.array_of_bracketed`
    * `Literal.parse_eq_ok_iff_spells`
-/

------------------------------------------------------------
-- The Grammar Of Arrays
------------------------------------------------------------

namespace StackCalc

namespace Grammar

variable {α β : Type}

/- Nothing but blanks. -/
def IsBlanks (t : Text) : Prop :=
  ∀ c ∈ t, Text.isBlank c = true

instance
    (t : Text) :
    Decidable (IsBlanks t) :=
  decidable_of_iff
    (t.all Text.isBlank = true)
    List.all_eq_true

/- Items with commas between them and blanks around each. -/
inductive Listed (P : Text → α → Prop) :
    Text → List α → Prop
  | last
      {front l back : Text}
      {a : α}
      (hFront : IsBlanks front)
      (hItem : P l a)
      (hBack : IsBlanks back) :
      Listed P (front ++ (l ++ back)) [a]
  | more
      {front l back t : Text}
      {a : α}
      {as : List α}
      (hFront : IsBlanks front)
      (hItem : P l a)
      (hBack : IsBlanks back)
      (hMore : Listed P t as) :
      Listed P (front ++ (l ++ (back ++ ',' :: t))) (a :: as)

/- Listed items, or none, between brackets. -/
inductive Bracketed (P : Text → α → Prop) :
    Text → List α → Prop
  | empty
      {blanks : Text}
      (hBlanks : IsBlanks blanks) :
      Bracketed P ('[' :: (blanks ++ [']'])) []
  | items
      {t : Text}
      {as : List α}
      (hItems : Listed P t as) :
      Bracketed P ('[' :: (t ++ [']'])) as

/-
  Numbers as one row: integers that can all be stored, or
  doubles if one of the numbers is a double and all the
  integers are within the range of doubles.
-/
inductive Gathers : List Number → NumVector → Prop
  | ints
      {zs : List Int}
      (hFits : ∀ z ∈ zs, Storage.fits z = true) :
      Gathers (zs.map .integer) (.ints zs)
  | floats
      {ns : List Number}
      {xs : List Float}
      (hFloat : ∃ x, .float x ∈ ns)
      (hRange : ns.map Number.toFloat? = xs.map some) :
      Gathers ns (.floats xs)

/-
  Rows of one length as a matrix, which holds doubles if
  one of the rows does. There is at least one row.
-/
inductive Stacks : List NumVector → NumMatrix → Prop
  | ints
      {g : Grid Int}
      (hRows : g.rows ≠ [])
      (hWidth : g.WellFormed) :
      Stacks (g.rows.map .ints) (.ints g)
  | floats
      {vs : List NumVector}
      {width : Nat}
      (hFloats : ∃ v ∈ vs, v.isFloats = true)
      (hWidth : ∀ v ∈ vs, v.length = width) :
      Stacks vs (.floats ⟨width, vs.map Entries.toFloats⟩)

/- A bracketed list of numbers that go into one row. -/
inductive SpellsRow : Text → NumVector → Prop
  | numbers
      {t : Text}
      {ns : List Number}
      {v : NumVector}
      (hNumbers : Bracketed SpellsNumber t ns)
      (hGathers : Gathers ns v) :
      SpellsRow t v

/- Literals: scalars, rows, and rows of one length. -/
inductive SpellsLiteral : Text → Value → Prop
  | scalar
      {t : Text}
      {s : Scalar}
      (hScalar : SpellsScalar t s) :
      SpellsLiteral t s.toValue
  | vector
      {t : Text}
      {v : NumVector}
      (hRow : SpellsRow t v) :
      SpellsLiteral t (.vector v)
  | matrix
      {t : Text}
      {vs : List NumVector}
      {m : NumMatrix}
      (hRows : Bracketed SpellsRow t vs)
      (hStacks : Stacks vs m) :
      SpellsLiteral t (.matrix m)

/- Lists depend on what their items may be only. -/
theorem listed_map_iff
    {P : Text → β → Prop}
    {Q : Text → α → Prop}
    {f : α → β}
    (h : ∀ l a, P l (f a) ↔ Q l a)
    {t : Text}
    {as : List α} :
    Listed P t (as.map f) ↔ Listed Q t as := by
  constructor
  · intro hListed
    generalize hMap : as.map f = bs at hListed
    induction hListed generalizing as with
    | last hFront hItem hBack =>
        rcases List.map_eq_singleton_iff.1 hMap with
          ⟨a, rfl, rfl⟩
        exact .last hFront ((h _ a).1 hItem) hBack
    | more hFront hItem hBack hMore ih =>
        rcases List.map_eq_cons_iff.1 hMap with
          ⟨a, as', rfl, rfl, hRest⟩
        exact .more hFront ((h _ a).1 hItem) hBack (ih hRest)
  · intro hListed
    induction hListed with
    | last hFront hItem hBack =>
        exact .last hFront ((h _ _).2 hItem) hBack
    | more hFront hItem hBack hMore ih =>
        exact .more hFront ((h _ _).2 hItem) hBack ih

theorem bracketed_map_iff
    {P : Text → β → Prop}
    {Q : Text → α → Prop}
    {f : α → β}
    (h : ∀ l a, P l (f a) ↔ Q l a)
    {t : Text}
    {as : List α} :
    Bracketed P t (as.map f) ↔ Bracketed Q t as := by
  constructor
  · intro hBracketed
    generalize hMap : as.map f = bs at hBracketed
    cases hBracketed with
    | empty hBlanks =>
        rw [List.map_eq_nil_iff.1 hMap]
        exact .empty hBlanks
    | items hItems =>
        rw [← hMap] at hItems
        exact .items ((listed_map_iff h).1 hItems)
  · intro hBracketed
    cases hBracketed with
    | empty hBlanks =>
        exact .empty hBlanks
    | items hItems =>
        exact .items ((listed_map_iff h).2 hItems)

end Grammar

end StackCalc

------------------------------------------------------------
-- Blanks
------------------------------------------------------------

namespace StackCalc

namespace Grammar

/- Only blanks are dropped. -/
theorem exists_blanks_append
    (t : Text) :
    ∃ blanks, IsBlanks blanks ∧
      t = blanks ++ Text.dropBlanks t :=
  ⟨t.takeWhile Text.isBlank,
    fun c hc => List.all_eq_true.1 List.all_takeWhile c hc,
    List.takeWhile_append_dropWhile.symm⟩

/- Blanks before a text are dropped. -/
theorem IsBlanks.dropBlanks_append
    {blanks : Text}
    (h : IsBlanks blanks)
    (t : Text) :
    Text.dropBlanks (blanks ++ t) = Text.dropBlanks t :=
  List.dropWhile_append_of_pos h

/- Blanks alone are dropped. -/
theorem dropBlanks_eq_nil_iff
    {t : Text} :
    Text.dropBlanks t = [] ↔ IsBlanks t := by
  induction t with
  | nil =>
      simp [Text.dropBlanks, IsBlanks]
  | cons c t ih =>
      cases hc : Text.isBlank c with
      | true =>
          rw [Text.dropBlanks_cons_blank hc, ih]
          simp [IsBlanks, hc]
      | false =>
          rw [Text.dropBlanks_cons hc]
          simp [IsBlanks, hc]

/- A literal may end where blanks lead to a boundary. -/
theorem IsBlanks.isBoundary_append
    {blanks rest : Text}
    (h : IsBlanks blanks)
    (hEnd : isBoundary rest = true) :
    isBoundary (blanks ++ rest) = true := by
  cases blanks with
  | nil =>
      exact hEnd
  | cons c blanks =>
      exact isBoundary_cons_iff.2
        (.inl (h c List.mem_cons_self))

variable {α : Type} {P : Text → α → Prop}

/- Spellings start with no blank and no closing bracket. -/
def StartsItems (P : Text → α → Prop) : Prop :=
  ∀ l a, P l a →
    ∃ c r, l = c :: r ∧ Text.isBlank c = false ∧ c ≠ ']'

/- Blanks before a spelling are dropped. -/
theorem StartsItems.dropBlanks_append
    {front l : Text}
    {a : α}
    (hStart : StartsItems P)
    (hFront : IsBlanks front)
    (hSpells : P l a)
    (rest : Text) :
    Text.dropBlanks (front ++ (l ++ rest)) = l ++ rest := by
  rcases hStart l a hSpells with ⟨c, r, rfl, hBlank, -⟩
  rw [hFront.dropBlanks_append]
  exact Text.dropBlanks_cons hBlank

/- Listed items start with blanks and a spelling. -/
theorem StartsItems.dropBlanks_listed
    {l : Text}
    {as : List α}
    (hStart : StartsItems P)
    (h : Listed P l as)
    (rest : Text) :
    ∃ c r, Text.dropBlanks (l ++ rest) = c :: r ∧
      c ≠ ']' := by
  cases h with
  | @last front l back a hFront hItem hBack =>
      rcases hStart l a hItem with ⟨c, r, rfl, -, hClose⟩
      refine ⟨c, r ++ (back ++ rest), ?_, hClose⟩
      rw [List.append_assoc, List.append_assoc,
        hStart.dropBlanks_append hFront hItem]
      rfl
  | @more front l back t a as hFront hItem hBack hMore =>
      rcases hStart l a hItem with ⟨c, r, rfl, -, hClose⟩
      refine ⟨c, r ++ (back ++ ',' :: t ++ rest), ?_, hClose⟩
      rw [List.append_assoc, List.append_assoc,
        hStart.dropBlanks_append hFront hItem]
      rfl

end Grammar

end StackCalc

------------------------------------------------------------
-- Readers Of Items
------------------------------------------------------------

namespace StackCalc

namespace Reader

open Grammar

variable {α : Type}

/-
  A reader reads what a relation says. What it reads spells
  what it gives, and what spells something is read as that
  wherever a literal may end after it.
-/
structure Reads
    (item : Reader α)
    (P : Text → α → Prop) : Prop where
  start : StartsItems P
  sound :
    ∀ {t r : Text} {a : α}, item.read t = .ok (a, r) →
      ∃ l, t = l ++ r ∧ P l a
  complete :
    ∀ {l rest : Text} {a : α}, P l a → HasShortRuns l →
      isBoundary rest = true →
        item.read (l ++ rest) = .ok (a, rest)

variable {item : Reader α} {P : Text → α → Prop}

/- What is read as items lists them. -/
theorem Reads.listed_of_items
    {t r : Text}
    {as : List α}
    (hReads : Reads item P)
    (h : items item t = .ok (as, r)) :
    ∃ l, t = l ++ ']' :: r ∧ Listed P l as := by
  fun_induction items item t generalizing as r with
  | case1 =>
      simp at h
  | case2 =>
      simp at h
  | case3 t a r₁ hItem r₂ hRest hShort as' r₃ hMore ih =>
      simp only [Except.ok.injEq, Prod.mk.injEq] at h
      rcases h with ⟨rfl, rfl⟩
      rcases exists_blanks_append t with
        ⟨front, hFront, hText⟩
      rcases exists_blanks_append r₁ with
        ⟨back, hBack, hAfter⟩
      rcases hReads.sound hItem with ⟨l, hRead, hSpells⟩
      rcases ih hMore with ⟨more, rfl, hListed⟩
      refine ⟨front ++ (l ++ (back ++ ',' :: more)), ?_,
        .more hFront hSpells hBack hListed⟩
      rw [hText, hRead, hAfter, hRest]
      simp
  | case4 t a r₁ hItem r₂ hRest =>
      simp only [Except.ok.injEq, Prod.mk.injEq] at h
      rcases h with ⟨rfl, rfl⟩
      rcases exists_blanks_append t with
        ⟨front, hFront, hText⟩
      rcases exists_blanks_append r₁ with
        ⟨back, hBack, hAfter⟩
      rcases hReads.sound hItem with ⟨l, hRead, hSpells⟩
      refine ⟨front ++ (l ++ back), ?_,
        .last hFront hSpells hBack⟩
      rw [hText, hRead, hAfter, hRest]
      simp
  | case5 =>
      simp at h

/- What is read as an array brackets its items. -/
theorem Reads.bracketed_of_array
    {t r : Text}
    {as : List α}
    (hReads : Reads item P)
    (h : array item t = .ok (as, r)) :
    ∃ l, '[' :: t = l ++ r ∧ Bracketed P l as := by
  unfold array at h
  split at h
  case h_1 r' hClose =>
    simp only [Except.ok.injEq, Prod.mk.injEq] at h
    rcases h with ⟨rfl, rfl⟩
    rcases exists_blanks_append t with
      ⟨blanks, hBlanks, hText⟩
    refine ⟨'[' :: (blanks ++ [']']), ?_, .empty hBlanks⟩
    rw [hText, hClose]
    simp
  case h_2 =>
    rcases hReads.listed_of_items h with ⟨l, rfl, hListed⟩
    refine ⟨'[' :: (l ++ [']']), ?_, .items hListed⟩
    simp

/- Listed items are read up to the closing bracket. -/
theorem Reads.items_of_listed
    {l : Text}
    {as : List α}
    (hReads : Reads item P)
    (h : Listed P l as)
    (hShort : HasShortRuns l)
    (r : Text) :
    items item (l ++ ']' :: r) = .ok (as, r) := by
  induction h with
  | @last front l back a hFront hItem hBack =>
      have hItemShort : HasShortRuns l :=
        hShort.of_infix ⟨front, back, by simp⟩
      have hRest :
          Text.dropBlanks (back ++ ']' :: r) = ']' :: r := by
        rw [hBack.dropBlanks_append]
        exact Text.dropBlanks_cons (by decide)
      apply items_of_close (r := back ++ ']' :: r) ?_ hRest
      rw [List.append_assoc, List.append_assoc,
        hReads.start.dropBlanks_append hFront hItem]
      exact hReads.complete hItem hItemShort
        (hBack.isBoundary_append rfl)
  | @more front l back t a as hFront hItem hBack hMore ih =>
      have hItemShort : HasShortRuns l :=
        hShort.of_infix ⟨front, back ++ ',' :: t, by simp⟩
      have hMoreShort : HasShortRuns t :=
        hShort.of_infix
          ⟨front ++ (l ++ (back ++ [','])), [], by simp⟩
      have hRest :
          Text.dropBlanks (back ++ ',' :: (t ++ ']' :: r)) =
            ',' :: (t ++ ']' :: r) := by
        rw [hBack.dropBlanks_append]
        exact Text.dropBlanks_cons (by decide)
      apply items_of_comma ?_ hRest (ih hMoreShort)
      rw [List.append_assoc, List.append_assoc,
        List.append_assoc, List.cons_append,
        hReads.start.dropBlanks_append hFront hItem]
      exact hReads.complete hItem hItemShort
        (hBack.isBoundary_append rfl)

/- Bracketed items are read as an array. -/
theorem Reads.array_of_bracketed
    {l : Text}
    {as : List α}
    (hReads : Reads item P)
    (h : Bracketed P l as)
    (hShort : HasShortRuns l)
    (r : Text) :
    ∃ t, l = '[' :: t ∧
      array item (t ++ r) = .ok (as, r) := by
  cases h with
  | @empty blanks hBlanks =>
      refine ⟨blanks ++ [']'], rfl, ?_⟩
      have hClose :
          Text.dropBlanks (blanks ++ ']' :: r) = ']' :: r := by
        rw [hBlanks.dropBlanks_append]
        exact Text.dropBlanks_cons (by decide)
      simp only [List.append_assoc, List.cons_append,
        List.nil_append, array, hClose]
  | @items t as hItems =>
      refine ⟨t ++ [']'], rfl, ?_⟩
      have hItemsShort : HasShortRuns t :=
        hShort.of_infix ⟨['['], [']'], rfl⟩
      have hRead :=
        hReads.items_of_listed hItems hItemsShort r
      rcases hReads.start.dropBlanks_listed hItems (']' :: r) with
        ⟨c, r', hStart, hClose⟩
      rw [List.append_assoc, List.cons_append,
        List.nil_append]
      unfold array
      split
      · rename_i r'' hDrop
        rw [hStart] at hDrop
        exact absurd (List.cons.inj hDrop).1 hClose
      · exact hRead

end Reader

end StackCalc

------------------------------------------------------------
-- Packing
------------------------------------------------------------

namespace StackCalc

namespace Literal

open Grammar

variable {α β : Type}

/- All results of a function that may give none. -/
theorem mapM_eq_some_iff
    {f : α → Option β}
    {as : List α}
    {bs : List β} :
    as.mapM f = some bs ↔ as.map f = bs.map some := by
  induction as generalizing bs with
  | nil =>
      cases bs with
      | _ =>
          simp
  | cons a as ih =>
      cases bs with
      | nil =>
          simp [Option.bind_eq_some_iff]
      | cons b bs =>
          simp [Option.bind_eq_some_iff, ih]

/- All results are there if each is. -/
theorem exists_mapM_eq_some_iff
    {f : α → Option β}
    {as : List α} :
    (∃ bs, as.mapM f = some bs) ↔
      ∀ a ∈ as, (f a).isSome = true := by
  simp only [mapM_eq_some_iff]
  constructor
  · rintro ⟨bs, h⟩ a ha
    rcases List.mem_map.1 (h ▸ List.mem_map_of_mem ha) with
      ⟨b, -, hb⟩
    rw [← hb]
    rfl
  · intro h
    have hAll : ∀ o ∈ as.map f, o.isSome = true :=
      List.forall_mem_map.2 h
    refine ⟨as.filterMap f, ?_⟩
    rw [List.map_filterMap_some_eq_filter_map_isSome,
      List.filter_eq_self.2 hAll]

/- The numbers are found exactly if there is nothing else. -/
theorem numbers?_eq_some_iff
    {ss : List Scalar}
    {ns : List Number} :
    numbers? ss = some ns ↔ ss = ns.map .number := by
  unfold numbers?
  rw [mapM_eq_some_iff]
  induction ss generalizing ns with
  | nil =>
      cases ns with
      | _ =>
          simp
  | cons s ss ih =>
      cases ns with
      | nil =>
          simp
      | cons n ns =>
          cases s with
          | number m =>
              simp [ih]
          | boolean b =>
              simp
          | string t =>
              simp

theorem any_isFloat_iff
    {ns : List Number} :
    ns.any Number.isFloat = true ↔ ∃ x, .float x ∈ ns := by
  rw [List.any_eq_true]
  constructor
  · rintro ⟨n, hMem, hFloat⟩
    cases n with
    | integer z =>
        exact Bool.noConfusion hFloat
    | float x =>
        exact ⟨x, hMem⟩
  · rintro ⟨x, hMem⟩
    exact ⟨.float x, hMem, rfl⟩

/- Numbers without a double among them are integers. -/
theorem eq_map_integers
    {ns : List Number}
    (h : ns.any Number.isFloat = false) :
    ns = (Number.integers ns).map .integer := by
  induction ns with
  | nil =>
      rfl
  | cons n ns ih =>
      rw [List.any_cons, Bool.or_eq_false_iff] at h
      cases n with
      | integer z =>
          exact congrArg (.integer z :: ·) (ih h.2)
      | float x =>
          exact Bool.noConfusion h.1

theorem integers_map_integer
    (zs : List Int) :
    Number.integers (zs.map .integer) = zs := by
  induction zs with
  | nil =>
      rfl
  | cons z zs ih =>
      exact congrArg (z :: ·) ih

/- The vector of some numbers is what they gather to. -/
theorem ofNumbers_eq_ok_iff
    {ns : List Number}
    {v : NumVector} :
    NumVector.ofNumbers ns = .ok v ↔ Gathers ns v := by
  constructor
  · intro h
    unfold NumVector.ofNumbers at h
    split at h
    case isTrue hFloat =>
      split at h
      case h_1 xs hRange =>
        rw [← Except.ok.inj h]
        exact .floats (any_isFloat_iff.1 hFloat)
          (mapM_eq_some_iff.1 hRange)
      case h_2 =>
        simp at h
    case isFalse hFloat =>
      simp only at h
      split at h
      case h_1 =>
        simp at h
      case h_2 hFits =>
        rw [← Except.ok.inj h,
          eq_map_integers (Bool.eq_false_iff.2 hFloat),
          integers_map_integer]
        exact .ints (Storage.firstUnfit?_eq_none_iff.1 hFits)
  · intro h
    cases h with
    | @ints zs hFits =>
        have hNoFloat :
            (zs.map Number.integer).any Number.isFloat =
              false := by
          simp [Number.isFloat]
        simp only [NumVector.ofNumbers, hNoFloat,
          Bool.false_eq_true, if_false, integers_map_integer,
          Storage.firstUnfit?_eq_none_iff.2 hFits]
    | floats hFloat hRange =>
        simp only [NumVector.ofNumbers,
          any_isFloat_iff.2 hFloat, if_true,
          mapM_eq_some_iff.2 hRange]

/- Scalars are packed exactly if they are numbers of a row. -/
theorem pack_eq_ok_iff
    {ss : List Scalar}
    {v : NumVector} :
    pack ss = .ok v ↔
      ∃ ns, ss = ns.map .number ∧ Gathers ns v := by
  constructor
  · intro h
    unfold pack at h
    split at h
    case h_1 =>
      simp at h
    case h_2 ns hNumbers =>
      refine ⟨ns, numbers?_eq_some_iff.1 hNumbers,
        ofNumbers_eq_ok_iff.1 ?_⟩
      split at h
      case h_1 v' hVector =>
        rw [hVector, ← Except.ok.inj h]
      case h_2 =>
        simp at h
      case h_3 =>
        simp at h
  · rintro ⟨ns, hNumbers, hGathers⟩
    simp only [pack, numbers?_eq_some_iff.2 hNumbers,
      ofNumbers_eq_ok_iff.2 hGathers]

/- Items without rows among them are scalars. -/
theorem eq_map_scalarsOf
    {is : List Item}
    (h : rowsOf is = []) :
    is = (scalarsOf is).map .scalar := by
  induction is with
  | nil =>
      rfl
  | cons i is ih =>
      cases i with
      | scalar s =>
          exact congrArg (.scalar s :: ·) (ih h)
      | row v =>
          exact absurd h (List.cons_ne_nil v (rowsOf is))

/- Items without scalars among them are rows. -/
theorem eq_map_rowsOf
    {is : List Item}
    (h : scalarsOf is = []) :
    is = (rowsOf is).map .row := by
  induction is with
  | nil =>
      rfl
  | cons i is ih =>
      cases i with
      | scalar s =>
          exact absurd h (List.cons_ne_nil s (scalarsOf is))
      | row v =>
          exact congrArg (.row v :: ·) (ih h)

/- Items are packed if they are numbers of a row or rows. -/
theorem packItems_eq_ok_iff
    {is : List Item}
    {node : Node} :
    packItems is = .ok node ↔
      (∃ ns v, is = ns.map (fun n => .scalar (.number n)) ∧
        Gathers ns v ∧ node = .vector v) ∨
      (∃ vs, vs ≠ [] ∧ is = vs.map .row ∧
        node = .rows vs) := by
  constructor
  · intro h
    unfold packItems at h
    split at h
    case h_1 ss hRows =>
      left
      split at h
      case h_1 v hPack =>
        rcases pack_eq_ok_iff.1 hPack with
          ⟨ns, hNumbers, hGathers⟩
        refine ⟨ns, v, ?_, hGathers, (Except.ok.inj h).symm⟩
        rw [eq_map_scalarsOf hRows, hNumbers, List.map_map]
        rfl
      case h_2 =>
        simp at h
    case h_2 hScalars hSome =>
      exact .inr ⟨rowsOf is, hSome, eq_map_rowsOf hScalars,
        (Except.ok.inj h).symm⟩
    case h_3 =>
      simp at h
  · rintro (⟨ns, v, rfl, hGathers, rfl⟩ | ⟨vs, hSome, rfl, rfl⟩)
    · simp only [packItems, rowsOf_map_scalar,
        scalarsOf_map_scalar,
        pack_eq_ok_iff.2 ⟨ns, rfl, hGathers⟩]
    · have hRows : rowsOf (vs.map .row) = vs :=
        (rowsOf_map_row id vs).trans (List.map_id vs)
      have hScalars : scalarsOf (vs.map .row) = [] :=
        scalarsOf_map_row id vs
      rcases List.exists_cons_of_ne_nil hSome with
        ⟨v, more, rfl⟩
      simp only [packItems, hRows, hScalars]

/- Rows have a common width exactly if all have it. -/
theorem commonWidth_eq_ok_iff
    {ns : List Nat}
    {w : Nat}
    (hNe : ns ≠ []) :
    NumMatrix.commonWidth ns = .ok w ↔ ∀ n ∈ ns, n = w := by
  refine ⟨?_, commonWidth_of_forall_eq hNe⟩
  intro h n hn
  have hMem : n ∈ NumMatrix.distinctLengths ns := by
    rw [NumMatrix.distinctLengths, List.mem_mergeSort,
      List.mem_eraseDups]
    exact hn
  unfold NumMatrix.commonWidth at h
  split at h
  case h_1 hNil =>
    rw [hNil] at hMem
    exact absurd hMem List.not_mem_nil
  case h_2 m hOne =>
    rw [hOne] at hMem
    rw [← Except.ok.inj h]
    exact List.mem_singleton.1 hMem
  case h_3 =>
    simp at h

/- Rows without doubles among them hold integers. -/
theorem exists_eq_map_ints
    {vs : List NumVector}
    (h : ¬ vs.any NumVector.isFloats = true) :
    ∃ rows : List (List Int), vs = rows.map .ints := by
  induction vs with
  | nil =>
      exact ⟨[], rfl⟩
  | cons v vs ih =>
      rw [List.any_cons, Bool.or_eq_true, not_or] at h
      rcases ih h.2 with ⟨rows, rfl⟩
      cases v with
      | ints zs =>
          exact ⟨zs :: rows, rfl⟩
      | floats xs =>
          exact absurd rfl h.1

/- The matrix with some rows is what they stack up to. -/
theorem ofRows_eq_ok_iff
    {vs : List NumVector}
    {m : NumMatrix}
    (hNe : vs ≠ []) :
    NumMatrix.ofRows vs = .ok m ↔ Stacks vs m := by
  have hLengths : vs.map NumVector.length ≠ [] := by
    simpa using hNe
  constructor
  · intro h
    unfold NumMatrix.ofRows at h
    split at h
    case h_1 =>
      simp at h
    case h_2 width hWidth =>
      rw [commonWidth_eq_ok_iff hLengths,
        List.forall_mem_map] at hWidth
      split at h
      case isTrue hFloats =>
        rw [← Except.ok.inj h]
        exact .floats (List.any_eq_true.1 hFloats) hWidth
      case isFalse hFloats =>
        rcases exists_eq_map_ints hFloats with ⟨rows, rfl⟩
        have hIntegers :
            (rows.map Entries.ints).map NumVector.integers =
              rows := by
          simp [NumVector.integers, Function.comp_def]
        rw [← Except.ok.inj h, hIntegers]
        refine Stacks.ints (g := ⟨width, rows⟩) ?_ ?_
        · simpa using hNe
        · exact List.forall_mem_map.1 hWidth
  · intro h
    cases h with
    | ints hRows hWidth =>
        exact ofRows_rows hRows hWidth
    | floats hFloats hWidth =>
        simp only [NumMatrix.ofRows,
          (commonWidth_eq_ok_iff hLengths).2
            (List.forall_mem_map.2 hWidth),
          List.any_eq_true.2 hFloats, if_true]

end Literal

end StackCalc

------------------------------------------------------------
-- Rows And Items
------------------------------------------------------------

namespace StackCalc

namespace Grammar

/-
  Whether a text starts with no blank, no bracket and no
  quote.
-/
def startsPlain (t : Text) : Bool :=
  t.head?.any fun c =>
    !(Text.isBlank c || c = '[' || c = ']' || c = '"')

theorem exists_eq_cons_of_startsPlain
    {t : Text}
    (h : startsPlain t = true) :
    ∃ c r, t = c :: r ∧ Text.isBlank c = false ∧
      c ≠ '[' ∧ c ≠ ']' ∧ c ≠ '"' := by
  cases t with
  | nil =>
      simp [startsPlain] at h
  | cons c r =>
      refine ⟨c, r, rfl, ?_⟩
      simpa [startsPlain, and_assoc] using h

theorem Signs.startsPlain_append
    {sign t : Text}
    {negative : Bool}
    (hSign : Signs sign negative)
    (h : startsPlain t = true) :
    startsPlain (sign ++ t) = true := by
  cases hSign with
  | none =>
      exact h
  | plus =>
      rfl
  | minus =>
      rfl

theorem Grouped.startsPlain_append
    {t ds : Text}
    (h : Grouped t ds)
    (rest : Text) :
    startsPlain (t ++ rest) = true := by
  rcases h.exists_eq_cons with ⟨d, r, rfl, hd⟩
  have hOpen : d ≠ '[' := Text.ne_of_isDigit hd rfl
  have hClose : d ≠ ']' := Text.ne_of_isDigit hd rfl
  have hQuote : d ≠ '"' := Text.ne_of_isDigit hd rfl
  simp [startsPlain, Text.isBlank_of_isDigit hd, hOpen,
    hClose, hQuote]

theorem SpellsNumber.startsPlain
    {l : Text}
    {n : Number}
    (h : SpellsNumber l n) :
    startsPlain l = true := by
  cases h with
  | @integer sign t ds negative hSign hDigits =>
      apply hSign.startsPlain_append
      rw [← List.append_nil t]
      exact hDigits.startsPlain_append []
  | float hNumeral hFloat =>
      rcases hNumeral with ⟨hSign, hWhole, -, -⟩
      exact hSign.startsPlain_append
        (hWhole.startsPlain_append _)
  | infinity hSign =>
      exact hSign.startsPlain_append (by decide)
  | notANumber hSign =>
      exact hSign.startsPlain_append (by decide)

/- The first characters of scalars tell them from arrays. -/
theorem SpellsScalar.exists_eq_cons
    {l : Text}
    {s : Scalar}
    (h : SpellsScalar l s) :
    ∃ c r, l = c :: r ∧ Text.isBlank c = false ∧
      c ≠ '[' ∧ c ≠ ']' := by
  cases h with
  | number hNumber =>
      rcases exists_eq_cons_of_startsPlain
          hNumber.startsPlain with
        ⟨c, r, hCons, hBlank, hOpen, hClose, -⟩
      exact ⟨c, r, hCons, hBlank, hOpen, hClose⟩
  | trueWord =>
      exact ⟨'t', _, rfl, by decide⟩
  | falseWord =>
      exact ⟨'f', _, rfl, by decide⟩
  | string hPlain =>
      exact ⟨'"', _, rfl, by decide⟩

theorem Bracketed.exists_eq_cons
    {α : Type}
    {P : Text → α → Prop}
    {l : Text}
    {as : List α}
    (h : Bracketed P l as) :
    ∃ r, l = '[' :: r := by
  cases h with
  | empty hBlanks =>
      exact ⟨_, rfl⟩
  | items hItems =>
      exact ⟨_, rfl⟩

/- Scalars in a row are read by the grammar. -/
theorem reads_rowItem :
    Literal.rowItem.Reads SpellsScalar where
  start _ _ h := by
    rcases h.exists_eq_cons with ⟨c, r, hCons, hBlank, -, hClose⟩
    exact ⟨c, r, hCons, hBlank, hClose⟩
  sound {t r s} h := by
    have hRow : Literal.readRowItem t = .ok (s, r) := h
    unfold Literal.readRowItem at hRow
    split at hRow
    · simp at hRow
    · exact spellsScalar_of_read hRow
  complete {l rest s} h hShort hEnd := by
    rcases h.exists_eq_cons with ⟨c, r, rfl, -, hOpen, -⟩
    have hRead := read_of_spellsScalar h hShort hEnd
    show Literal.readRowItem (c :: r ++ rest) = _
    unfold Literal.readRowItem
    split
    · rename_i rest' hStart
      exact absurd (List.cons.inj hStart).1 hOpen
    · exact hRead

theorem spellsScalar_number_iff
    (l : Text)
    (n : Number) :
    SpellsScalar l (.number n) ↔ SpellsNumber l n := by
  constructor
  · intro h
    cases h with
    | number hNumber =>
        exact hNumber
  · exact .number

/- What is read as a row spells it. -/
theorem spellsRow_of_readRow
    {whole t r : Text}
    {v : NumVector}
    (h : Literal.readRow whole t = .ok (v, r)) :
    ∃ l, '[' :: t = l ++ r ∧ SpellsRow l v := by
  unfold Literal.readRow at h
  split at h
  case h_1 =>
    simp at h
  case h_2 ss r' hArray =>
    split at h
    case h_1 v' hPack =>
      simp only [Except.ok.injEq, Prod.mk.injEq] at h
      rcases h with ⟨rfl, rfl⟩
      rcases reads_rowItem.bracketed_of_array hArray with
        ⟨l, hText, hBracketed⟩
      rcases Literal.pack_eq_ok_iff.1 hPack with
        ⟨ns, rfl, hGathers⟩
      exact ⟨l, hText, .numbers
        ((bracketed_map_iff spellsScalar_number_iff).1
          hBracketed) hGathers⟩
    case h_2 =>
      simp at h

/- What spells a row is read as it. -/
theorem readRow_of_spellsRow
    {l : Text}
    {v : NumVector}
    (h : SpellsRow l v)
    (hShort : HasShortRuns l)
    (whole rest : Text) :
    ∃ t, l = '[' :: t ∧
      Literal.readRow whole (t ++ rest) = .ok (v, rest) := by
  rcases h with ⟨hNumbers, hGathers⟩
  have hScalars :=
    (bracketed_map_iff spellsScalar_number_iff).2 hNumbers
  rcases reads_rowItem.array_of_bracketed hScalars hShort
      rest with ⟨t, hText, hArray⟩
  refine ⟨t, hText, ?_⟩
  simp only [Literal.readRow, hArray,
    Literal.pack_eq_ok_iff.2 ⟨_, rfl, hGathers⟩]

/- What may stand in an array. -/
inductive SpellsItem : Text → Literal.Item → Prop
  | scalar
      {t : Text}
      {s : Scalar}
      (hScalar : SpellsScalar t s) :
      SpellsItem t (.scalar s)
  | row
      {t : Text}
      {v : NumVector}
      (hRow : SpellsRow t v) :
      SpellsItem t (.row v)

/- Scalars and rows in an array are read by the grammar. -/
theorem reads_item :
    Literal.item.Reads SpellsItem where
  start _ _ h := by
    cases h with
    | scalar hScalar =>
        rcases hScalar.exists_eq_cons with
          ⟨c, r, hCons, hBlank, -, hClose⟩
        exact ⟨c, r, hCons, hBlank, hClose⟩
    | row hRow =>
        rcases hRow with ⟨hNumbers, -⟩
        rcases hNumbers.exists_eq_cons with ⟨r, hCons⟩
        exact ⟨'[', r, hCons, by decide⟩
  sound {t r i} h := by
    have hItem : Literal.readItem t = .ok (i, r) := h
    unfold Literal.readItem at hItem
    split at hItem
    case h_1 rest =>
      split at hItem
      case h_1 =>
        simp at hItem
      case h_2 v r' hRow =>
        simp only [Except.ok.injEq, Prod.mk.injEq] at hItem
        rcases hItem with ⟨rfl, rfl⟩
        rcases spellsRow_of_readRow hRow with ⟨l, hText, hSpells⟩
        exact ⟨l, hText, .row hSpells⟩
    case h_2 =>
      split at hItem
      case h_1 =>
        simp at hItem
      case h_2 s r' hScalar =>
        simp only [Except.ok.injEq, Prod.mk.injEq] at hItem
        rcases hItem with ⟨rfl, rfl⟩
        rcases spellsScalar_of_read hScalar with
          ⟨l, hText, hSpells⟩
        exact ⟨l, hText, .scalar hSpells⟩
  complete {l rest i} h hShort hEnd := by
    cases h with
    | @scalar s hScalar =>
        rcases hScalar.exists_eq_cons with
          ⟨c, r, rfl, -, hOpen, -⟩
        have hRead := read_of_spellsScalar hScalar hShort hEnd
        show Literal.readItem (c :: r ++ rest) = _
        unfold Literal.readItem
        split
        · rename_i rest' hStart
          exact absurd (List.cons.inj hStart).1 hOpen
        · rw [hRead]
    | @row v hRow =>
        rcases readRow_of_spellsRow hRow hShort (l ++ rest)
            rest with ⟨t, rfl, hRead⟩
        show Literal.readItem ('[' :: t ++ rest) = _
        simp only [List.cons_append] at hRead ⊢
        simp only [Literal.readItem, hRead]

end Grammar

end StackCalc

------------------------------------------------------------
-- Literals
------------------------------------------------------------

namespace StackCalc

namespace Literal

open Grammar

theorem spellsItem_number_iff
    (l : Text)
    (n : Number) :
    SpellsItem l (.scalar (.number n)) ↔
      SpellsNumber l n := by
  constructor
  · intro h
    cases h with
    | scalar hScalar =>
        exact (spellsScalar_number_iff l n).1 hScalar
  · intro h
    exact .scalar (.number h)

theorem spellsItem_row_iff
    (l : Text)
    (v : NumVector) :
    SpellsItem l (.row v) ↔ SpellsRow l v := by
  constructor
  · intro h
    cases h with
    | row hRow =>
        exact hRow
  · exact .row

/- What is read as a literal spells its value. -/
theorem spellsLiteral_of_readNode
    {t r : Text}
    {node : Node}
    {v : Value}
    (h : readNode t = .ok (node, r))
    (hValue : node.toValue = .ok v) :
    ∃ l, t = l ++ r ∧ SpellsLiteral l v := by
  unfold readNode at h
  split at h
  case h_1 rest =>
    split at h
    case h_1 =>
      simp at h
    case h_2 is r' hArray =>
      rcases reads_item.bracketed_of_array hArray with
        ⟨l, hText, hBracketed⟩
      split at h
      case h_1 node' hPack =>
        simp only [Except.ok.injEq, Prod.mk.injEq] at h
        rcases h with ⟨rfl, rfl⟩
        refine ⟨l, hText, ?_⟩
        rcases packItems_eq_ok_iff.1 hPack with
          ⟨ns, w, rfl, hGathers, rfl⟩ | ⟨vs, hSome, rfl, rfl⟩
        · rw [← Except.ok.inj hValue]
          exact .vector (.numbers
            ((bracketed_map_iff spellsItem_number_iff).1
              hBracketed) hGathers)
        · unfold Node.toValue at hValue
          simp only at hValue
          split at hValue
          case h_1 m hMatrix =>
            rw [← Except.ok.inj hValue]
            exact .matrix
              ((bracketed_map_iff spellsItem_row_iff).1
                hBracketed)
              ((ofRows_eq_ok_iff hSome).1 hMatrix)
          case h_2 =>
            simp at hValue
      case h_2 =>
        simp at h
  case h_2 =>
    split at h
    case h_1 =>
      simp at h
    case h_2 s r' hScalar =>
      simp only [Except.ok.injEq, Prod.mk.injEq] at h
      rcases h with ⟨rfl, rfl⟩
      rcases spellsScalar_of_read hScalar with
        ⟨l, hText, hSpells⟩
      rw [← Except.ok.inj hValue]
      exact ⟨l, hText, .scalar hSpells⟩

/- A matrix has at least one row. -/
theorem ne_nil_of_stacks
    {vs : List NumVector}
    {m : NumMatrix}
    (h : Stacks vs m) :
    vs ≠ [] := by
  cases h with
  | ints hRows hWidth =>
      simpa using hRows
  | floats hFloats hWidth =>
      rcases hFloats with ⟨v, hv, -⟩
      exact List.ne_nil_of_mem hv

/- Bracketed items are read and packed. -/
theorem readNode_of_bracketed
    {l : Text}
    {is : List Item}
    {node : Node}
    (h : Bracketed SpellsItem l is)
    (hShort : HasShortRuns l)
    (hPack : packItems is = .ok node)
    (rest : Text) :
    readNode (l ++ rest) = .ok (node, rest) := by
  rcases reads_item.array_of_bracketed h hShort rest with
    ⟨t, rfl, hArray⟩
  simp only [List.cons_append, readNode, hArray, hPack]

/- What spells a value is read as a literal for it. -/
theorem readNode_of_spellsLiteral
    {l rest : Text}
    {v : Value}
    (h : SpellsLiteral l v)
    (hShort : HasShortRuns l)
    (hEnd : isBoundary rest = true) :
    ∃ node, readNode (l ++ rest) = .ok (node, rest) ∧
      node.toValue = .ok v := by
  cases h with
  | @scalar s hScalar =>
      refine ⟨.scalar s, ?_, rfl⟩
      rcases hScalar.exists_eq_cons with
        ⟨c, r, rfl, -, hOpen, -⟩
      have hRead := read_of_spellsScalar hScalar hShort hEnd
      unfold readNode
      split
      · rename_i rest' hStart
        exact absurd (List.cons.inj hStart).1 hOpen
      · rw [hRead]
  | @vector w hRow =>
      rcases hRow with ⟨hNumbers, hGathers⟩
      exact ⟨.vector w, readNode_of_bracketed
        ((bracketed_map_iff spellsItem_number_iff).2 hNumbers)
        hShort
        (packItems_eq_ok_iff.2
          (.inl ⟨_, w, rfl, hGathers, rfl⟩)) rest, rfl⟩
  | @matrix vs m hRows hStacks =>
      have hSome := ne_nil_of_stacks hStacks
      refine ⟨.rows vs, readNode_of_bracketed
        ((bracketed_map_iff spellsItem_row_iff).2 hRows)
        hShort
        (packItems_eq_ok_iff.2 (.inr ⟨vs, hSome, rfl, rfl⟩))
        rest, ?_⟩
      simp only [Node.toValue,
        (ofRows_eq_ok_iff hSome).2 hStacks]

/- Literals start with no blank. -/
theorem exists_eq_cons_of_spellsLiteral
    {l : Text}
    {v : Value}
    (h : SpellsLiteral l v) :
    ∃ c r, l = c :: r ∧ Text.isBlank c = false := by
  cases h with
  | scalar hScalar =>
      rcases hScalar.exists_eq_cons with
        ⟨c, r, hCons, hBlank, -⟩
      exact ⟨c, r, hCons, hBlank⟩
  | vector hRow =>
      rcases hRow with ⟨hNumbers, -⟩
      rcases hNumbers.exists_eq_cons with ⟨r, hCons⟩
      exact ⟨'[', r, hCons, by decide⟩
  | matrix hRows hStacks =>
      rcases hRows.exists_eq_cons with ⟨r, hCons⟩
      exact ⟨'[', r, hCons, by decide⟩

/- A literal that starts with a quote is a string. -/
theorem eq_string_of_spellsLiteral
    {l : Text}
    {v : Value}
    (h : SpellsLiteral l v)
    (hQuote : l.head? = some '"') :
    v = .string l := by
  cases h with
  | scalar hScalar =>
      cases hScalar with
      | number hNumber =>
          rcases exists_eq_cons_of_startsPlain
              hNumber.startsPlain with
            ⟨c, r, rfl, -, -, -, hPlain⟩
          exact absurd (Option.some.inj hQuote) hPlain
      | trueWord =>
          exact absurd hQuote (by decide)
      | falseWord =>
          exact absurd hQuote (by decide)
      | string hPlain =>
          rfl
  | vector hRow =>
      rcases hRow with ⟨hNumbers, -⟩
      rcases hNumbers.exists_eq_cons with ⟨r, rfl⟩
      exact absurd (Option.some.inj hQuote) (by decide)
  | matrix hRows hStacks =>
      rcases hRows.exists_eq_cons with ⟨r, rfl⟩
      exact absurd (Option.some.inj hQuote) (by decide)

/- No blanks stand around a text between quotes. -/
theorem eq_nil_of_isQuoted
    {front l back : Text}
    (hFront : IsBlanks front)
    (hBack : IsBlanks back)
    (h : Text.isQuoted (front ++ (l ++ back)) = true) :
    front = [] ∧ back = [] := by
  have hNotBlank : Text.isBlank '"' = false := by decide
  simp only [Text.isQuoted, Text.isWrapped, Bool.and_eq_true,
    beq_iff_eq] at h
  rcases h with ⟨⟨-, hHead⟩, hLast⟩
  constructor
  · cases front with
    | nil =>
        rfl
    | cons c front =>
        have hc : c = '"' := Option.some.inj hHead
        have hBlank := hFront c List.mem_cons_self
        rw [hc, hNotBlank] at hBlank
        exact Bool.noConfusion hBlank
  · rcases List.eq_nil_or_concat back with hNil | ⟨m, c, rfl⟩
    · exact hNil
    · have hc : c = '"' := by
        simpa [List.getLast?_append] using hLast
      have hBlank := hBack c (by simp)
      rw [hc, hNotBlank] at hBlank
      exact Bool.noConfusion hBlank

/- A literal between blanks is read as a whole. -/
theorem readWhole_of_spellsLiteral
    {front l back : Text}
    {v : Value}
    (hFront : IsBlanks front)
    (hBack : IsBlanks back)
    (h : SpellsLiteral l v)
    (hShort : HasShortRuns l) :
    ∃ node, readWhole (front ++ (l ++ back)) = .ok node ∧
      node.toValue = .ok v := by
  have hEnd : isBoundary back = true := by
    have hBoundary : isBoundary (back ++ []) = true :=
      hBack.isBoundary_append rfl
    rwa [List.append_nil] at hBoundary
  rcases readNode_of_spellsLiteral h hShort hEnd with
    ⟨node, hRead, hValue⟩
  refine ⟨node, ?_, hValue⟩
  have hDrop :
      Text.dropBlanks (front ++ (l ++ back)) = l ++ back := by
    rcases exists_eq_cons_of_spellsLiteral h with
      ⟨c, r, rfl, hBlank⟩
    rw [hFront.dropBlanks_append]
    exact Text.dropBlanks_cons hBlank
  simp only [readWhole, hDrop, hRead,
    dropBlanks_eq_nil_iff.2 hBack]

/- What is read as a whole is a literal between blanks. -/
theorem spellsLiteral_of_readWhole
    {t : Text}
    {node : Node}
    {v : Value}
    (h : readWhole t = .ok node)
    (hValue : node.toValue = .ok v) :
    ∃ front l back, IsBlanks front ∧ IsBlanks back ∧
      t = front ++ (l ++ back) ∧ SpellsLiteral l v := by
  unfold readWhole at h
  split at h
  case h_1 =>
    simp at h
  case h_2 node' r hRead =>
    split at h
    case h_1 hNil =>
      rw [Except.ok.inj h] at hRead
      rcases exists_blanks_append t with
        ⟨front, hFront, hText⟩
      rcases spellsLiteral_of_readNode hRead hValue with
        ⟨l, hNode, hSpells⟩
      rw [hNode] at hText
      exact ⟨front, l, r, hFront,
        dropBlanks_eq_nil_iff.1 hNil, hText, hSpells⟩
    case h_2 =>
      simp at h

/-
  A text without overlong runs of digits is parsed exactly
  if it stands between quotes or is a literal with blanks
  around it, and the value is what the literal spells.
-/
theorem parse_eq_ok_iff_spells
    {t : Text}
    {v : Value}
    (hShort : HasShortRuns t) :
    parse t = .ok v ↔
      (Text.isQuoted t = true ∧ v = .string t) ∨
      ∃ front l back, IsBlanks front ∧ IsBlanks back ∧
        t = front ++ (l ++ back) ∧ SpellsLiteral l v := by
  constructor
  · intro h
    unfold parse at h
    split at h
    case isTrue hQuoted =>
      exact .inl ⟨hQuoted, (Except.ok.inj h).symm⟩
    case isFalse =>
      right
      split at h
      case isTrue =>
        simp at h
      case isFalse =>
        split at h
        case h_1 =>
          simp at h
        case h_2 node hWhole =>
          split at h
          case h_1 v' hValue =>
            rw [Except.ok.inj h] at hValue
            exact spellsLiteral_of_readWhole hWhole hValue
          case h_2 =>
            simp at h
  · rintro (⟨hQuoted, rfl⟩ |
      ⟨front, l, back, hFront, hBack, rfl, hSpells⟩)
    · simp [parse, hQuoted]
    · rcases exists_eq_cons_of_spellsLiteral hSpells with
        ⟨c, r, hCons, -⟩
      by_cases hQuoted :
          Text.isQuoted (front ++ (l ++ back)) = true
      · rcases eq_nil_of_isQuoted hFront hBack hQuoted with
          ⟨rfl, rfl⟩
        rw [List.append_nil, List.nil_append] at hQuoted ⊢
        have hHead : l.head? = some '"' := by
          rw [Text.eq_of_isWrapped hQuoted]
          rfl
        rw [eq_string_of_spellsLiteral hSpells hHead, parse,
          if_pos hQuoted]
      · have hNe : front ++ (l ++ back) ≠ [] := by
          simp [hCons]
        rcases readWhole_of_spellsLiteral hFront hBack hSpells
            (hShort.of_infix ⟨front, back, by simp⟩) with
          ⟨node, hWhole, hValue⟩
        simp only [parse, hQuoted, hNe, if_false, hWhole,
          hValue, Bool.false_eq_true]

/- Two rows with blanks and an underscore are a matrix. -/
theorem parse_rows_of_spells :
    HasShortRuns " [ [1_000] , [-2]]".toList ∧
      parse " [ [1_000] , [-2]]".toList =
        .ok (.matrix (.ints ⟨1, [[1000], [-2]]⟩)) := by
  have hShort : HasShortRuns " [ [1_000] , [-2]]".toList :=
    hasShortRuns_of_length_le (by decide)
  have hThousand :
      SpellsNumber ([] ++ (['1'] ++ '_' :: "000".toList))
        (.integer 1000) :=
    .integer .none (.group (by decide) (.run (by decide)))
  have hMinusTwo :
      SpellsNumber (['-'] ++ ['2']) (.integer (-2)) :=
    .integer .minus (.run (by decide))
  have hRow :
      ∀ {l z}, SpellsNumber l (.integer z) →
        Storage.fits z = true →
          SpellsRow ('[' :: ([] ++ (l ++ []) ++ [']']))
            (.ints [z]) := by
    intro l z hNumber hFits
    have hGathers : Gathers ([z].map .integer) (.ints [z]) :=
      .ints (by simpa using hFits)
    exact .numbers
      (.items (.last (by decide) hNumber (by decide)))
      hGathers
  have hRows :
      Listed SpellsRow
        ([' '] ++ ("[1_000]".toList ++ ([' '] ++
          ',' :: ([' '] ++ ("[-2]".toList ++ [])))))
        [.ints [1000], .ints [-2]] :=
    .more (by decide) (hRow hThousand (by decide)) (by decide)
      (.last (by decide) (hRow hMinusTwo (by decide))
        (by decide))
  have hStacks :
      Stacks ([[1000], [-2]].map .ints)
        (.ints ⟨1, [[1000], [-2]]⟩) :=
    .ints (g := ⟨1, [[1000], [-2]]⟩) (by decide) (by decide)
  exact ⟨hShort, (parse_eq_ok_iff_spells hShort).2
    (.inr ⟨[' '], "[ [1_000] , [-2]]".toList, [], by decide,
      by decide, rfl, .matrix (.items hRows) hStacks⟩)⟩

end Literal

end StackCalc

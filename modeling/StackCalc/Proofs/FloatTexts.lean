import StackCalc.Proofs.LiteralGrammar
import StackCalc.Proofs.ShortestDecimals

/-
  Written doubles are read back, alone and in arrays.

  A format may only choose how digits are laid out. Every
  layout is a numeral of the grammar, and moving the point
  or adding zeros does not change the decimal that the
  digits stand for. So all formats write the same decimal,
  which is read as the double that it was found for.

  Main declarations:
    * `Decimal.placed`
    * `Decimal.value_digitsOf`
    * `Decimal.spells_layout`
    * `Decimal.spells_floatText`
    * `Value.spells_renderFloat`
    * `Value.parse_render_floats`
-/

------------------------------------------------------------
-- Digits And Their Places
------------------------------------------------------------

namespace StackCalc

namespace Decimal

open Grammar

theorem natValue_append
    (ds es : Text) :
    natValue (ds ++ es) =
      10 ^ es.length * natValue ds + natValue es := by
  rw [natValue, Nat.ofDigitChars_append,
    Nat.ofDigitChars_eq_ofDigitChars_zero]
  rfl

theorem natValue_zeros_append
    (k : Nat)
    (ds : Text) :
    natValue (List.replicate k '0' ++ ds) = natValue ds := by
  rw [natValue_append, natValue,
    Nat.ofDigitChars_replicate_zero]
  omega

/-
  The number that digits denote whose first one stands `p`
  places before the decimal point.
-/
def placed
    (ds : Text)
    (p : ℤ) : ℚ :=
  natValue ds * 10 ^ (p - ds.length)

/- Zeros after the digits do not count. -/
theorem placed_append_zeros
    (ds : Text)
    (k : Nat)
    (p : ℤ) :
    placed (ds ++ List.replicate k '0') p = placed ds p := by
  have hTen : (10 : ℚ) ≠ 0 := by
    norm_num
  have hValue :
      natValue (ds ++ List.replicate k '0') =
        10 ^ k * natValue ds := by
    rw [natValue_append, List.length_replicate, natValue,
      natValue, Nat.ofDigitChars_replicate_zero]
    omega
  have hPlaces :
      (10 : ℚ) ^ (p - ds.length) =
        10 ^ k * 10 ^ (p - (ds.length + k : ℤ)) := by
    rw [← zpow_natCast, ← zpow_add₀ hTen]
    congr 1
    omega
  rw [placed, placed, hValue, hPlaces, List.length_append,
    List.length_replicate]
  push_cast
  ring

/- Zeros before the digits move them. -/
theorem placed_zeros_append
    (ds : Text)
    (k : Nat)
    (p : ℤ) :
    placed (List.replicate k '0' ++ ds) (p + k) =
      placed ds p := by
  rw [placed, placed, natValue_zeros_append,
    List.length_append, List.length_replicate]
  congr 2
  push_cast
  omega

/- The number that digits of a decimal stand for. -/
def Digits.value (d : Digits) : ℚ :=
  placed d.digits d.point

/- The digits of a decimal are its text without zeros. -/
theorem exists_natText_eq_append
    (d : Scientific) :
    ∃ k, natText d.mantissa =
      (digitsOf d).digits ++ List.replicate k '0' := by
  generalize hText : natText d.mantissa = ds
  have hZeros :
      ∀ c ∈ ds.reverse.takeWhile (· = '0'), c = '0' := by
    intro c hc
    simpa using List.mem_takeWhile_imp hc
  refine ⟨(ds.reverse.takeWhile (· = '0')).length, ?_⟩
  rw [digitsOf, hText, ← List.reverse_replicate,
    ← List.eq_replicate_of_mem hZeros, ← List.reverse_append,
    List.takeWhile_append_dropWhile, List.reverse_reverse]

/- The digits of a decimal denote it. -/
theorem value_digitsOf
    (d : Scientific) :
    (digitsOf d).value = d.value := by
  rcases exists_natText_eq_append d with ⟨k, hText⟩
  have hPlaced :=
    placed_append_zeros (digitsOf d).digits k (digitsOf d).point
  rw [← hText] at hPlaced
  rw [Digits.value, ← hPlaced, placed, natValue_natText,
    Scientific.value, digitsOf, add_sub_cancel_right]

/- There are digits unless the decimal is zero. -/
theorem isRun_digitsOf
    {d : Scientific}
    (h : 0 < d.mantissa) :
    IsRun (digitsOf d).digits := by
  rcases exists_natText_eq_append d with ⟨k, hText⟩
  constructor
  · intro hNone
    rw [hNone, List.nil_append] at hText
    have hValue := natValue_natText d.mantissa
    rw [hText, natValue, Nat.ofDigitChars_replicate_zero]
      at hValue
    omega
  · intro c hc
    apply isDigit_of_mem_natText (n := d.mantissa)
    rw [hText]
    exact List.mem_append_left _ hc

end Decimal

namespace Numeral

/- The parts of a numeral say where its digits stand. -/
theorem value_magnitude
    (n : Numeral) :
    n.magnitude.value =
      Decimal.placed (n.whole ++ n.fraction.getD [])
        (n.exponent.getD 0 + n.whole.length) := by
  rw [magnitude, Decimal.Scientific.value, Decimal.placed,
    List.length_append]
  congr 2
  push_cast
  omega

end Numeral

end StackCalc

------------------------------------------------------------
-- Layouts
------------------------------------------------------------

namespace StackCalc

namespace Decimal

open Grammar

theorem isDigit_of_mem_zeros
    {k : ℤ}
    {c : Char}
    (h : c ∈ zeros k) :
    c.isDigit = true := by
  rw [List.eq_of_mem_replicate h]
  rfl

theorem isRun_append
    {ds es : Text}
    (hSome : ds ≠ [] ∨ es ≠ [])
    (hLeft : ∀ c ∈ ds, c.isDigit = true)
    (hRight : ∀ c ∈ es, c.isDigit = true) :
    IsRun (ds ++ es) := by
  refine ⟨by simpa [Decidable.imp_iff_not_or] using hSome, ?_⟩
  exact List.forall_mem_append.2 ⟨hLeft, hRight⟩

theorem isRun_take
    {ds : Text}
    {k : Nat}
    (h : IsRun ds)
    (hPos : 0 < k) :
    IsRun (ds.take k) := by
  refine ⟨?_, fun c hc => h.2 c (List.mem_of_mem_take hc)⟩
  rw [Ne, List.take_eq_nil_iff]
  rintro (hZero | hNone)
  · omega
  · exact h.1 hNone

theorem isRun_drop
    {ds : Text}
    {k : Nat}
    (h : IsRun ds)
    (hLess : k < ds.length) :
    IsRun (ds.drop k) := by
  refine ⟨?_, fun c hc => h.2 c (List.mem_of_mem_drop hc)⟩
  rw [Ne, List.drop_eq_nil_iff]
  omega

/-
  Around the point of a positional layout stand digits
  that have kept their places.
-/
theorem exists_positional_eq
    {d : Digits}
    (h : IsRun d.digits) :
    ∃ whole fraction,
      positional d = whole ++ '.' :: fraction ∧
      IsRun whole ∧ IsRun fraction ∧
      placed (whole ++ fraction) whole.length = d.value := by
  unfold positional
  by_cases hLow : d.point ≤ 0
  · rw [if_pos hLow]
    refine ⟨['0'], zeros (-d.point) ++ d.digits, rfl,
      by decide,
      isRun_append (.inr h.1) (fun _ => isDigit_of_mem_zeros)
        h.2, ?_⟩
    have hMoved :=
      placed_zeros_append d.digits ((-d.point).toNat + 1)
        d.point
    have hPlace :
        d.point + ((-d.point).toNat + 1 : Nat) = 1 := by
      omega
    rw [hPlace, List.replicate_succ] at hMoved
    exact hMoved
  · rw [if_neg hLow]
    by_cases hInside : d.point < d.digits.length
    · rw [if_pos hInside]
      have hPlace : d.point.toNat < d.digits.length := by
        omega
      refine ⟨_, _, rfl, isRun_take h (by omega),
        isRun_drop h hPlace, ?_⟩
      rw [List.take_append_drop, List.length_take, Digits.value]
      congr 1
      omega
    · rw [if_neg hInside]
      refine ⟨d.digits ++ zeros (d.point - d.digits.length),
        ['0'], rfl,
        isRun_append (.inl h.1) h.2
          (fun _ => isDigit_of_mem_zeros), by decide, ?_⟩
      have hMore :=
        placed_append_zeros d.digits
          ((d.point - d.digits.length).toNat + 1) d.point
      rw [Digits.value, ← hMore, List.replicate_succ',
        ← List.append_assoc]
      congr 1
      simp [zeros]
      omega

/- A written exponent is read as itself. -/
theorem exponent_exponentText
    (e : ℤ) :
    Exponent ('e' :: exponentText e) (some e) := by
  unfold exponentText
  dsimp only
  generalize hDigits :
    zeros (2 - (natText e.natAbs).length) ++ natText e.natAbs =
      ds
  have hRun : IsRun ds := by
    rcases exists_natText_eq_cons e.natAbs with
      ⟨c, cs, hCons, -⟩
    rw [← hDigits]
    refine isRun_append (.inr ?_)
      (fun _ => isDigit_of_mem_zeros)
      (fun _ => isDigit_of_mem_natText)
    rw [hCons]
    exact List.cons_ne_nil c cs
  have hValue : natValue ds = e.natAbs := by
    rw [← hDigits, zeros, natValue_zeros_append,
      natValue_natText]
  by_cases hNegative : e < 0
  · have hMinus := Exponent.some (.inl rfl) .minus hRun
    have hSame : -(e.natAbs : ℤ) = e := by
      omega
    rw [hValue, if_pos rfl, hSame] at hMinus
    rw [if_pos hNegative]
    exact hMinus
  · have hPlus := Exponent.some (.inl rfl) .plus hRun
    have hSame : (e.natAbs : ℤ) = e := by
      omega
    rw [hValue, if_neg (by decide), hSame] at hPlus
    rw [if_neg hNegative]
    exact hPlus

/-
  What is asked of the numeral that a double is written
  as: it has a given sign and value and is no integer, and
  a full mantissa has a fraction.
-/
structure Writes
    (fmt : FloatFormat)
    (negative : Bool)
    (q : ℚ)
    (n : Numeral) : Prop where
  sign : n.negative = negative
  value : n.magnitude.value = q
  isFloat : n.fraction ≠ none ∨ n.exponent ≠ none
  fraction : fmt.fullMantissa = true → n.fraction ≠ none

/-
  In an exponential layout the first digit stands before
  the point. Only a layout without a full mantissa may have
  no fraction, which happens if there is just one digit.
-/
theorem exists_exponential_eq
    {d : Digits}
    (h : IsRun d.digits)
    (fmt : FloatFormat) :
    ∃ whole fraction f,
      exponential fmt d =
        whole ++ (fraction ++
          'e' :: exponentText (d.point - 1)) ∧
      IsRun whole ∧ whole.length = 1 ∧ Fraction fraction f ∧
      placed (whole ++ f.getD []) d.point = d.value ∧
      (fmt.fullMantissa = true → f ≠ none) := by
  rcases d with ⟨digits, p⟩
  rcases List.exists_cons_of_ne_nil h.1 with ⟨c, more, hCons⟩
  simp only at h hCons
  subst hCons
  have hFirst : IsRun [c] :=
    isRun_singleton (h.2 c List.mem_cons_self)
  have hMore : ∀ e ∈ more, e.isDigit = true :=
    fun e he => h.2 e (List.mem_cons_of_mem c he)
  unfold exponential
  cases more with
  | nil =>
      by_cases hFull : fmt.fullMantissa = true
      · refine ⟨[c], ".0".toList, some ['0'], ?_, hFirst, rfl,
          .some (.run (by decide)), ?_, by simp⟩
        · simp [hFull]
        · exact placed_append_zeros [c] 1 p
      · refine ⟨[c], [], none, ?_, hFirst, rfl, .none, rfl,
          fun hTrue => absurd hTrue hFull⟩
        simp [hFull]
  | cons e es =>
      refine ⟨[c], '.' :: e :: es, some (e :: es), ?_, hFirst,
        rfl, .some (.run ⟨List.cons_ne_nil e es, hMore⟩), rfl,
        by simp⟩
      simp

/- Every layout of digits is a numeral that denotes them. -/
theorem spells_layout
    {sign : Text}
    {negative : Bool}
    {d : Digits}
    (hSign : Signs sign negative)
    (h : IsRun d.digits)
    (fmt : FloatFormat) :
    ∃ n, SpellsNumeral (sign ++ layout fmt d) n ∧
      Writes fmt negative d.value n := by
  unfold layout
  by_cases hNear : -4 < d.point ∧ d.point ≤ 16
  · rw [if_pos hNear]
    rcases exists_positional_eq h with
      ⟨whole, fraction, hText, hWhole, hFraction, hValue⟩
    have hSpells :=
      SpellsNumeral.parts hSign (.run hWhole)
        (.some (.run hFraction)) .none
    rw [List.append_nil] at hSpells
    rw [hText]
    refine ⟨_, hSpells, rfl, ?_, .inl (by simp), by simp⟩
    rw [Numeral.value_magnitude, ← hValue]
    simp
  · rw [if_neg hNear]
    rcases exists_exponential_eq h fmt with
      ⟨whole, fraction, f, hText, hWhole, hOne, hFraction,
        hValue, hFull⟩
    have hSpells :=
      SpellsNumeral.parts hSign (.run hWhole) hFraction
        (exponent_exponentText (d.point - 1))
    rw [hText]
    refine ⟨_, hSpells, rfl, ?_, .inr (by simp), hFull⟩
    rw [Numeral.value_magnitude, ← hValue]
    simp [hOne]

end Decimal

end StackCalc

------------------------------------------------------------
-- Written Doubles
------------------------------------------------------------

namespace StackCalc

namespace Decimal

open Grammar

/- The decimal that the magnitude of a double is written as. -/
def magnitudeOf (x : Float) : ℚ :=
  if x == 0.0 then 0 else (shortest x).value

/- The sign that a double is written with. -/
def signText (x : Float) : Text :=
  if isNegativeFloat x then ['-'] else []

theorem signs_signText
    (x : Float) :
    Signs (signText x) (isNegativeFloat x) := by
  unfold signText
  cases isNegativeFloat x with
  | false =>
      exact .none
  | true =>
      exact .minus

theorem floatText_eq_append
    {x : Float}
    (h : x.isNaN = false)
    (fmt : FloatFormat) :
    floatText fmt x = signText x ++ magnitudeText fmt x := by
  unfold floatText signText
  rw [h, if_neg (by decide)]
  split
  · rfl
  · rfl

/-
  A finite double is zero, of which only the sign is left,
  or a number other than zero.
-/
theorem zero_or_finite_of_isFinite
    {x : Float}
    (h : x.isFinite = true) :
    ((x == 0.0) = true ∧
      x.abs = .ofModel (.pack (.zero .positive))) ∨
    ((x == 0.0) = false ∧
      ∃ s m e hm, x.toModel.unpack = .finite s m e hm) := by
  have hFinite : x.toModel.unpack.isFinite = true := h
  have hTest :
      (x == 0.0) = x.toModel.unpack.beq (.zero .positive) :=
    rfl
  have hAbs :
      x.abs = .ofModel (.pack x.toModel.unpack.abs) :=
    rfl
  rw [hTest, hAbs]
  cases hNumber : x.toModel.unpack with
  | notANumber =>
      rw [hNumber] at hFinite
      exact Bool.noConfusion hFinite
  | infinity s =>
      rw [hNumber] at hFinite
      exact Bool.noConfusion hFinite
  | zero s =>
      exact .inl ⟨rfl, rfl⟩
  | finite s m e hm =>
      refine .inr ⟨?_, s, m, e, hm, rfl⟩
      cases s with
      | _ =>
          rfl

theorem isFinite_iff
    (x : Float) :
    x.isFinite = true ↔ x.isNaN = false ∧ x.isInf = false := by
  have hSame :
      x.toModel.unpack.isFinite =
        (!x.toModel.unpack.isNaN && !x.toModel.unpack.isInf) := by
    cases x.toModel.unpack with
    | _ =>
        rfl
  have hEither : x.isFinite = (!x.isNaN && !x.isInf) := hSame
  rw [hEither, Bool.and_eq_true, Bool.not_eq_true',
    Bool.not_eq_true']

/-
  A finite double is written as a numeral with its sign,
  whose digits are those of its decimal in any format.
-/
theorem spells_floatText
    {x : Float}
    (h : x.isFinite = true)
    (fmt : FloatFormat) :
    ∃ n, SpellsNumeral (floatText fmt x) n ∧
      Writes fmt (isNegativeFloat x) (magnitudeOf x) n := by
  have hSign := signs_signText x
  rcases (isFinite_iff x).1 h with ⟨hNaN, hInf⟩
  rw [floatText_eq_append hNaN, magnitudeText, hInf,
    if_neg (by decide), magnitudeOf]
  rcases zero_or_finite_of_isFinite h with
    ⟨hZero, -⟩ | ⟨hSome, s, m, e, hm, hNumber⟩
  · have hSpells :=
      SpellsNumeral.parts hSign
        (.run (by decide : IsRun ['0']))
        (.some (.run (by decide : IsRun ['0']))) .none
    rw [if_pos hZero, if_pos hZero]
    refine ⟨_, hSpells, rfl, ?_, .inl (by simp), by simp⟩
    rw [Scientific.value_eq_zero_iff]
    rfl
  · rw [hSome, if_neg (by decide), if_neg (by decide),
      ← value_digitsOf]
    exact spells_layout hSign
      (isRun_digitsOf (mantissa_shortest_pos hNumber)) fmt

/- Such a numeral is read as the double. -/
theorem Writes.toFloat_eq
    {x : Float}
    {fmt : FloatFormat}
    {n : Numeral}
    (hWrites : Writes fmt (isNegativeFloat x) (magnitudeOf x) n)
    (h : x.isFinite = true) :
    n.toFloat = x := by
  have hMagnitude : n.magnitude.toFloat = x.abs := by
    have hValue := hWrites.value
    unfold magnitudeOf at hValue
    rcases zero_or_finite_of_isFinite h with
      ⟨hZero, hAbs⟩ | ⟨hSome, s, m, e, hm, hNumber⟩
    · rw [if_pos hZero, Scientific.value_eq_zero_iff] at hValue
      rw [Scientific.toFloat_of_zero hValue, hAbs]
    · rw [hSome, if_neg (by decide)] at hValue
      rw [Scientific.toFloat_congr hValue,
        toFloat_shortest hNumber]
  rw [Numeral.toFloat, hWrites.sign, hMagnitude,
    Double.signedFloat_abs ((isFinite_iff x).1 h).1]

end Decimal

namespace Numeral

open Grammar

/- What spells a numeral is read as it as a whole. -/
theorem ofText?_of_spells
    {t : Text}
    {n : Numeral}
    (h : SpellsNumeral t n) :
    ofText? t = some n := by
  have hRead : read (t ++ []) = some (n, []) :=
    read_of_spellsNumeral h rfl
  rw [List.append_nil] at hRead
  rw [ofText?, hRead]

end Numeral

namespace Value

open Grammar Decimal

/- An infinite double is its sign with the word for it. -/
theorem spells_renderFloat_of_isInf
    {x : Float}
    (h : x.isInf = true) :
    SpellsNumber (renderFloat x) (.float x) := by
  have hInf : x.toModel.unpack.isInf = true := h
  cases hNumber : x.toModel.unpack with
  | infinity s =>
      have hNaN : x.isNaN = false := by
        show x.toModel.unpack.isNaN = false
        rw [hNumber]
        rfl
      have hAbs : x.abs = 1.0 / 0.0 := by
        show Float.ofModel (.pack x.toModel.unpack.abs) = _
        rw [hNumber]
        rfl
      have hSpells := SpellsNumber.infinity (signs_signText x)
      rw [← hAbs, Double.signedFloat_abs hNaN] at hSpells
      rw [renderFloat, floatText_eq_append hNaN, magnitudeText,
        if_pos h]
      exact hSpells
  | _ =>
      rw [hNumber] at hInf
      exact Bool.noConfusion hInf

/- A double is spelled as the grammar spells doubles. -/
theorem spells_renderFloat
    (x : Float) :
    SpellsNumber (renderFloat x) (.float x) := by
  cases hNaN : x.isNaN with
  | true =>
      have hSame : x = 0.0 / 0.0 := by
        rw [Float.isNaN_eq_decide_eq_nan,
          decide_eq_true_eq] at hNaN
        rw [hNaN]
        rfl
      rw [renderFloat, floatText, if_pos hNaN, hSame]
      exact .notANumber .none
  | false =>
      cases hInf : x.isInf with
      | true =>
          exact spells_renderFloat_of_isInf hInf
      | false =>
          have hFinite := (isFinite_iff x).2 ⟨hNaN, hInf⟩
          rcases spells_floatText hFinite floatFormat with
            ⟨n, hSpells, hWrites⟩
          have hNumber :=
            SpellsNumber.float hSpells hWrites.isFloat
          rwa [hWrites.toFloat_eq hFinite] at hNumber

end Value

end StackCalc

------------------------------------------------------------
-- Arrays Of Doubles
------------------------------------------------------------

namespace StackCalc

namespace Literal

open Grammar

/-
  What spells a double is the spelling of an entry for any
  reader that reads scalars as such where no bracket opens.
-/
theorem spells_of_spellsFloat
    {α : Type}
    {entry : Reader α}
    {f : Scalar → α}
    {l : Text}
    {x : Float}
    (hScalars :
      ∀ c t s r, c ≠ '[' → Scalar.read (c :: t) = .ok (s, r) →
        entry.read (c :: t) = .ok (f s, r))
    (h : SpellsNumber l (.float x)) :
    entry.Spells l (f (.number (.float x))) := by
  rcases exists_eq_cons_of_startsPlain h.startsPlain with
    ⟨d, ds, rfl, hBlank, hOpen, hClose, -⟩
  refine ⟨⟨d, ds, rfl, hBlank, hClose⟩, ?_⟩
  intro c r hc
  apply hScalars d (ds ++ c :: r) _ (c :: r) hOpen
  exact read_of_spellsFloat h (isBoundary_cons_iff.2 (.inr hc))

theorem rowItem_read_of_scalar
    (c : Char)
    (t : Text)
    (s : Scalar)
    (r : Text)
    (hOpen : c ≠ '[')
    (h : Scalar.read (c :: t) = .ok (s, r)) :
    rowItem.read (c :: t) = .ok (s, r) := by
  show readRowItem (c :: t) = _
  unfold readRowItem
  split
  · rename_i rest hStart
    exact absurd (List.cons.inj hStart).1 hOpen
  · exact h

theorem item_read_of_scalar
    (c : Char)
    (t : Text)
    (s : Scalar)
    (r : Text)
    (hOpen : c ≠ '[')
    (h : Scalar.read (c :: t) = .ok (s, r)) :
    item.read (c :: t) = .ok (.scalar s, r) := by
  show readItem (c :: t) = _
  unfold readItem
  split
  · rename_i rest hStart
    exact absurd (List.cons.inj hStart).1 hOpen
  · rw [h]

theorem gathers_floats
    {xs : List Float}
    (h : xs ≠ []) :
    Gathers (xs.map .float) (.floats xs) := by
  rcases List.exists_mem_of_ne_nil xs h with ⟨x, hx⟩
  refine .floats ⟨x, List.mem_map_of_mem hx⟩ ?_
  rw [List.map_map]
  rfl

/- A written row of doubles is the spelling of a row. -/
theorem item_spells_floats
    {xs : List Float}
    (h : xs ≠ []) :
    item.Spells (bracketed (xs.map Value.renderFloat))
      (.row (.floats xs)) := by
  refine ⟨⟨'[', _, rfl, by decide, by decide⟩, ?_⟩
  intro c r hc
  have hArray :=
    Reader.array_joinWith
      (fun x (_ : x ∈ xs) =>
        spells_of_spellsFloat rowItem_read_of_scalar
          (Value.spells_renderFloat x)) (c :: r)
  have hPack :
      pack (xs.map fun x => .number (.float x)) =
        .ok (.floats xs) :=
    pack_eq_ok_iff.2
      ⟨xs.map .float, by rw [List.map_map]; rfl,
        gathers_floats h⟩
  show readItem
    (bracketed (xs.map Value.renderFloat) ++ c :: r) = _
  simp only [bracketed, List.cons_append, List.append_assoc,
    List.nil_append, readItem, readRow, hArray, hPack]

/- A written vector of doubles is read as that vector. -/
theorem readNode_renderVector_floats
    {xs : List Float}
    (h : xs ≠ []) :
    readNode (Value.renderVector (.floats xs)) =
      .ok (.vector (.floats xs), []) := by
  have hArray :=
    Reader.array_joinWith
      (fun x (_ : x ∈ xs) =>
        spells_of_spellsFloat item_read_of_scalar
          (Value.spells_renderFloat x)) []
  have hPack :
      packItems (xs.map fun x => .scalar (.number (.float x))) =
        .ok (.vector (.floats xs)) :=
    packItems_eq_ok_iff.2 (.inl
      ⟨xs.map .float, .floats xs, by rw [List.map_map]; rfl,
        gathers_floats h, rfl⟩)
  simp only [Value.renderVector, bracketed, readNode, hArray,
    hPack]

/- A written matrix of doubles is read as its rows. -/
theorem readNode_renderMatrix_floats
    {g : Grid Float}
    (hRows : g.rows ≠ [])
    (hEntries : ∀ row ∈ g.rows, row ≠ []) :
    readNode (Value.renderMatrix (.floats g)) =
      .ok (.rows (g.rows.map .floats), []) := by
  have hArray :=
    Reader.array_joinWith
      (fun row hRow => item_spells_floats (hEntries row hRow))
      []
  have hPack :
      packItems (g.rows.map fun row => .row (.floats row)) =
        .ok (.rows (g.rows.map .floats)) :=
    packItems_eq_ok_iff.2 (.inr
      ⟨g.rows.map .floats, by simpa using hRows,
        by rw [List.map_map]; rfl, rfl⟩)
  simp only [Value.renderMatrix, bracketed] at hArray ⊢
  simp only [readNode, hArray, hPack]

/- The rows of a matrix of doubles make up that matrix. -/
theorem ofRows_floats
    {g : Grid Float}
    (hRows : g.rows ≠ [])
    (hWidth : g.WellFormed) :
    NumMatrix.ofRows (g.rows.map .floats) = .ok (.floats g) := by
  have hSome : g.rows.map Entries.floats ≠ [] := by
    simpa using hRows
  have hBack :
      (g.rows.map Entries.floats).map Entries.toFloats =
        g.rows := by
    simp [Entries.toFloats, Function.comp_def]
  have hFloats :
      ∃ v ∈ g.rows.map Entries.floats,
        NumVector.isFloats v = true := by
    rcases List.exists_mem_of_ne_nil _ hRows with ⟨row, hRow⟩
    exact ⟨.floats row, List.mem_map_of_mem hRow, rfl⟩
  have hStacks :=
    Stacks.floats hFloats (List.forall_mem_map.2 hWidth)
  rw [hBack] at hStacks
  exact (ofRows_eq_ok_iff hSome).2 hStacks

end Literal

end StackCalc

------------------------------------------------------------
-- Reading Back
------------------------------------------------------------

namespace StackCalc

namespace Value

open Grammar Decimal

theorem parse_renderFloat
    (x : Float) :
    Literal.parse (renderFloat x) = .ok (.float x) := by
  have hSpells := spells_renderFloat x
  have hScalar :
      Scalar.read (renderFloat x ++ []) =
        .ok (.number (.float x), []) :=
    read_of_spellsFloat hSpells rfl
  rcases exists_eq_cons_of_startsPlain hSpells.startsPlain with
    ⟨c, r, hCons, hBlank, hOpen, -, hQuote⟩
  rw [List.append_nil, hCons] at hScalar
  have hNode :
      Literal.readNode (c :: r) =
        .ok (.scalar (.number (.float x)), []) := by
    unfold Literal.readNode
    split
    · rename_i rest hStart
      exact absurd (List.cons.inj hStart).1 hOpen
    · rw [hScalar]
  rw [hCons]
  exact Literal.parse_of_readNode hBlank hQuote hNode rfl

theorem parse_renderVector_floats
    {xs : List Float}
    (h : xs ≠ []) :
    Literal.parse (renderVector (.floats xs)) =
      .ok (.vector (.floats xs)) :=
  Literal.parse_of_readNode (by decide) (by decide)
    (Literal.readNode_renderVector_floats h) rfl

theorem parse_renderMatrix_floats
    {g : Grid Float}
    (hWidth : g.WellFormed)
    (hRows : g.rows ≠ [])
    (hSome : 0 < g.width) :
    Literal.parse (renderMatrix (.floats g)) =
      .ok (.matrix (.floats g)) := by
  have hEntries : ∀ row ∈ g.rows, row ≠ [] := by
    rintro row hRow rfl
    have hNone := hWidth [] hRow
    simp at hNone
    omega
  apply Literal.parse_of_readNode (by decide) (by decide)
    (Literal.readNode_renderMatrix_floats hRows hEntries)
  rw [Literal.Node.toValue, Literal.ofRows_floats hRows hWidth]

/-
  Doubles are read back as they were written. The text of
  a finite one is a numeral with a fraction, of the same
  sign and decimal as the one that messages show. Vectors
  and matrices of doubles are read back too, unless they
  are empty.
-/
theorem parse_render_floats :
    (∀ x : Float,
      ∃ t, (Value.float x).render = some t ∧
        Literal.parse t = .ok (.float x) ∧
        (x.isFinite = true →
          ∃ n n', Numeral.ofText? t = some n ∧
            n.fraction ≠ none ∧
            Numeral.ofText? (floatText messageFormat x) =
              some n' ∧
            n.negative = n'.negative ∧
            n.magnitude.value = n'.magnitude.value)) ∧
    (∀ xs : List Float, xs ≠ [] →
      ∃ t, (Value.vector (.floats xs)).render = some t ∧
        Literal.parse t = .ok (.vector (.floats xs))) ∧
    (∀ g : Grid Float, g.WellFormed → g.rows ≠ [] →
      0 < g.width →
      ∃ t, (Value.matrix (.floats g)).render = some t ∧
        Literal.parse t = .ok (.matrix (.floats g))) := by
  refine ⟨?_, ?_, ?_⟩
  · intro x
    refine ⟨renderFloat x, rfl, parse_renderFloat x, ?_⟩
    intro hFinite
    rcases spells_floatText hFinite floatFormat with
      ⟨n, hSpells, hWrites⟩
    rcases spells_floatText hFinite messageFormat with
      ⟨n', hSpells', hWrites'⟩
    exact ⟨n, n', Numeral.ofText?_of_spells hSpells,
      hWrites.fraction rfl, Numeral.ofText?_of_spells hSpells',
      hWrites.sign.trans hWrites'.sign.symm,
      hWrites.value.trans hWrites'.value.symm⟩
  · intro xs hSome
    exact ⟨_, rfl, parse_renderVector_floats hSome⟩
  · intro g hWidth hRows hSome
    exact ⟨_, rfl, parse_renderMatrix_floats hWidth hRows hSome⟩

theorem parse_render_floats_corners :
    (∃ n n', Numeral.ofText? "1.0e+22".toList = some n ∧
      n.fraction ≠ none ∧
      Numeral.ofText? "1e+22".toList = some n' ∧
      n.negative = n'.negative ∧
      n.magnitude.value = n'.magnitude.value) ∧
    Literal.parse "[-0.0, 1.0e+22]".toList =
      .ok (.vector (.floats [-0.0, 1e22])) ∧
    Literal.parse "[[NaN, -Infinity]]".toList =
      .ok (.matrix (.floats ⟨2, [[0.0 / 0.0, -1.0 / 0.0]]⟩)) := by
  refine ⟨?_, ?_, ?_⟩
  · rcases parse_render_floats.1 1e22 with
      ⟨t, hText, -, hNumerals⟩
    have hSame : "1.0e+22".toList = t := Option.some.inj hText
    rw [hSame]
    exact hNumerals rfl
  · rcases parse_render_floats.2.1 [-0.0, 1e22] (by simp) with
      ⟨t, hText, hParse⟩
    have hSame : "[-0.0, 1.0e+22]".toList = t :=
      Option.some.inj hText
    rw [hSame]
    exact hParse
  · rcases parse_render_floats.2.2
        ⟨2, [[0.0 / 0.0, -1.0 / 0.0]]⟩ (by decide) (by simp)
        (by decide) with
      ⟨t, hText, hParse⟩
    have hSame : "[[NaN, -Infinity]]".toList = t :=
      Option.some.inj hText
    rw [hSame]
    exact hParse

end Value

end StackCalc

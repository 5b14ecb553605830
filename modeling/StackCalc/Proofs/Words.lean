import StackCalc.Arithmetic.Array

/-
  What words keep of exact arithmetic.

  The word of a sum is the sum of the words, and so it is
  for differences and products. An array computed in words
  therefore holds the words of the exact result, whatever
  wraps on the way, and entries that fit into storage can
  be read back from their words.

  Main declarations:
    * `Storage.toInt_ofInt`
    * `LawfulShaped`
    * `ofWords_toWords`
    * `map_toWords`
    * `dot_toWords`
    * `Grid.product_toWords`
    * `Grid.apply_toWords`
-/

------------------------------------------------------------
-- Single Words
------------------------------------------------------------

namespace StackCalc

namespace Storage

/- What fits into storage is read back from its word. -/
theorem toInt_ofInt
    {z : Int}
    (h : fits z = true) :
    (Int64.ofInt z).toInt = z := by
  rcases fits_iff.1 h with ⟨hLeast, hGreatest⟩
  unfold least at hLeast
  unfold greatest at hGreatest
  apply Int64.toInt_ofInt_of_le
  · omega
  · omega

end Storage

/-
  The quotient of words is the word of the quotient. Unlike
  sums and products it needs the numbers themselves.
-/
theorem floorQuotient_ofInt
    {x y : Int}
    (hx : Storage.fits x = true)
    (hy : Storage.fits y = true) :
    floorQuotient (Int64.ofInt x) (Int64.ofInt y) =
      Int64.ofInt (Int.fdiv x y) := by
  rw [floorQuotient, Storage.toInt_ofInt hx,
    Storage.toInt_ofInt hy]

end StackCalc

------------------------------------------------------------
-- Entry By Entry
------------------------------------------------------------

namespace StackCalc

/- Mapping changes the entries one by one and no more. -/
class LawfulShaped
    (C : Type → Type)
    [Shaped C] : Prop where
  map_map {α β γ : Type} (f : α → β) (g : β → γ) (c : C α) :
    Shaped.map g (Shaped.map f c) =
      Shaped.map (fun a => g (f a)) c
  map_congr {α β : Type} {f g : α → β} {c : C α} :
    (∀ a ∈ Shaped.toList c, f a = g a) →
      Shaped.map f c = Shaped.map g c
  map_self {α : Type} (c : C α) :
    Shaped.map (fun a => a) c = c
  toList_map {α β : Type} (f : α → β) (c : C α) :
    Shaped.toList (Shaped.map f c) =
      (Shaped.toList c).map f

instance : LawfulShaped List where
  map_map _ _ _ := List.map_map
  map_congr h := List.map_congr_left h
  map_self xs := List.map_id xs
  toList_map _ _ := rfl

instance : LawfulShaped Grid where
  map_map f g c := by
    simp [Shaped.map, Grid.map, Function.comp_def]
  map_congr {α β f g c} h := by
    have hRows :
        c.rows.map (List.map f) = c.rows.map (List.map g) := by
      apply List.map_congr_left
      intro row hRow
      apply List.map_congr_left
      intro a ha
      exact h a (List.mem_flatten.2 ⟨row, hRow, ha⟩)
    simp only [Shaped.map, Grid.map, hRows]
  map_self c := by
    simp [Shaped.map, Grid.map]
  toList_map f c := by
    simp [Shaped.map, Shaped.toList, Grid.map, Grid.toList,
      List.map_flatten]

section Shaped

variable {C : Type → Type} [Shaped C] [LawfulShaped C]

/- Entries that fit are what their words stand for. -/
theorem ofWords_toWords
    {c : C Int}
    (h : ∀ z ∈ Shaped.toList c, Storage.fits z = true) :
    ofWords (toWords c) = c := by
  rw [ofWords, toWords, LawfulShaped.map_map]
  calc
    Shaped.map (fun z => (Int64.ofInt z).toInt) c =
        Shaped.map (fun z => z) c := by
      apply LawfulShaped.map_congr
      intro z hz
      exact Storage.toInt_ofInt (h z hz)
    _ = c := LawfulShaped.map_self c

/- An operation on words that follows one on integers. -/
theorem map_toWords
    {f : Int → Int}
    {w : Int64 → Int64}
    {c : C Int}
    (h : ∀ z ∈ Shaped.toList c,
      w (Int64.ofInt z) = Int64.ofInt (f z)) :
    Shaped.map w (toWords c) = toWords (Shaped.map f c) := by
  rw [toWords, toWords, LawfulShaped.map_map,
    LawfulShaped.map_map]
  exact LawfulShaped.map_congr h

end Shaped

section Combined

variable
  {f : Int → Int → Int}
  {w : Int64 → Int64 → Int64}
  (h : ∀ x y,
    w (Int64.ofInt x) (Int64.ofInt y) = Int64.ofInt (f x y))

include h

theorem zipWith_toWords
    (xs ys : List Int) :
    List.zipWith w (toWords xs) (toWords ys) =
      toWords (List.zipWith f xs ys) := by
  simp only [toWords, Shaped.map, List.zipWith_map,
    List.map_zipWith, h]

theorem Grid.zipWith_toWords
    (x y : Grid Int) :
    Grid.zipWith w (toWords x) (toWords y) =
      toWords (Grid.zipWith f x y) := by
  simp only [toWords, Shaped.map, Grid.zipWith, Grid.map,
    List.zipWith_map, List.map_zipWith, h]

end Combined

end StackCalc

------------------------------------------------------------
-- Products
------------------------------------------------------------

namespace StackCalc

/-
  Words are added to the word of what was added so far.
-/
theorem foldl_ofInt
    (zs : List Int)
    (z : Int) :
    (zs.map Int64.ofInt).foldl (· + ·) (Int64.ofInt z) =
      Int64.ofInt (zs.foldl (· + ·) z) := by
  induction zs generalizing z with
  | nil =>
      rfl
  | cons x xs ih =>
      rw [List.map_cons, List.foldl_cons, List.foldl_cons,
        ← Int64.ofInt_add]
      exact ih (z + x)

theorem total_toWords
    (zs : List Int) :
    total (zs.map Int64.ofInt) = Int64.ofInt (total zs) := by
  match zs with
  | [] =>
      rfl
  | [_] =>
      rfl
  | x :: y :: zs =>
      exact foldl_ofInt (x :: y :: zs) 0

/- Sums of products may wrap on the way. -/
theorem dot_toWords
    (xs ys : List Int) :
    dot (toWords xs) (toWords ys) =
      Int64.ofInt (dot xs ys) := by
  have hMul :
      List.zipWith (· * ·) (toWords xs) (toWords ys) =
        toWords (List.zipWith (· * ·) xs ys) :=
    zipWith_toWords
      (fun x y => (Int64.ofInt_mul x y).symm) xs ys
  rw [dot, dot, hMul]
  exact total_toWords _

theorem NumVector.crossProduct_toWords
    {xs ys zs : List Int}
    (h : crossProduct xs ys = some zs) :
    crossProduct (toWords xs) (toWords ys) =
      some (toWords zs) := by
  unfold crossProduct at h
  split at h
  · rw [← Option.some.inj h]
    simp [crossProduct, toWords, Shaped.map]
  · simp at h

namespace Grid

theorem columns_map
    {α β : Type}
    (f : α → β)
    (g : Grid α) :
    (g.map f).columns = g.columns.map (List.map f) := by
  simp [columns, column, map, List.filterMap_map,
    List.map_filterMap, Function.comp_def]

theorem product_toWords
    (x y : Grid Int) :
    (toWords x).product (toWords y) =
      toWords (x.product y) := by
  have hColumns :
      (toWords y).columns = y.columns.map toWords :=
    columns_map Int64.ofInt y
  rw [product, hColumns]
  simp only [toWords, Shaped.map, product, map, List.map_map,
    Function.comp_def]
  simp only [← dot_toWords]
  rfl

theorem apply_toWords
    (x : Grid Int)
    (ys : List Int) :
    (toWords x).apply (toWords ys) =
      toWords (x.apply ys) := by
  simp only [toWords, Shaped.map, apply, map, List.map_map,
    Function.comp_def, ← dot_toWords]

end Grid

end StackCalc

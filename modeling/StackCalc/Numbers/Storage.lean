/-
  This file defines which integers an array can store:
  those of sixty-four bits, with a sign.

  Key definitions include:
    * `StackCalc.Storage.least`
    * `StackCalc.Storage.greatest`
    * `StackCalc.Storage.fits`
    * `StackCalc.Storage.firstUnfit?`
-/

------------------------------------------------------------
-- Range
------------------------------------------------------------

namespace StackCalc

namespace Storage

/- The least integer that an array can store. -/
def least : Int :=
  -9223372036854775808

/- The greatest integer that an array can store. -/
def greatest : Int :=
  9223372036854775807

/- Whether an array can store an integer. -/
def fits (z : Int) : Bool :=
  least ≤ z && z ≤ greatest

/- An array stores exactly the integers in range. -/
theorem fits_iff
    {z : Int} :
    fits z = true ↔ least ≤ z ∧ z ≤ greatest := by
  simp [fits]

/- The first integer that an array cannot store. -/
def firstUnfit? (zs : List Int) : Option Int :=
  zs.find? fun z => !fits z

/- There is none exactly when all integers can be stored. -/
theorem firstUnfit?_eq_none_iff
    {zs : List Int} :
    firstUnfit? zs = none ↔ ∀ z ∈ zs, fits z = true := by
  simp [firstUnfit?]

end Storage

end StackCalc

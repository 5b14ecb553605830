import StackCalc.Proofs.Invariants
import StackCalc.Proofs.ReadValues

/-
  Every value on the stack is well formed.

  Sessions start with nothing on the stack. Literals and
  operators give well-formed values, and only names and the
  sources of blocks are deferred, so no request brings a
  value that is not well formed, whether it succeeds or
  not, and no run inside of it sees one.

  Main declarations:
    * `Run.invariant_wellFormed`
    * `Session.wellFormed_of_reaches`
-/

------------------------------------------------------------
-- Operators
------------------------------------------------------------

namespace StackCalc

namespace Value

/- A well-formed value has shape as an operand. -/
theorem WellFormed.hasShape_operand
    {v : Value}
    (h : v.WellFormed) :
    v.operand.HasShape := by
  cases v with
  | matrix m =>
      exact h.wellFormed
  | _ =>
      trivial

end Value

namespace Binary

/- Operators give well-formed values. -/
theorem Gives.wellFormed
    {l r v : Value}
    (h : Gives l.operand r.operand v)
    (hl : l.WellFormed)
    (hr : r.WellFormed) :
    v.WellFormed := by
  cases h with
  | number n =>
      cases n with
      | _ =>
          trivial
  | vector hStored =>
      exact hStored
  | matrix hSound =>
      exact hSound hl.hasShape_operand hr.hasShape_operand
  | _ =>
      trivial

end Binary

end StackCalc

------------------------------------------------------------
-- Runs And Sessions
------------------------------------------------------------

namespace StackCalc

namespace Run

/- Nothing that is carried out breaks a value. -/
theorem invariant_wellFormed :
    Invariant Value.WellFormed fun _ => True where
  boolean := fun _ => trivial
  integer := fun _ => trivial
  transpose := fun _ h => h.transpose
  binary := fun hApply hl hr =>
    (Binary.gives_of_apply hApply).wellFormed hl hr
  name := fun _ => trivial
  unquoted := fun _ => trivial
  deferred := fun _ hText => hText
  literal := fun hParse _ => Literal.wellFormed_of_parse hParse
  written := fun _ _ => trivial
  line := fun _ _ _ _ _ => trivial

end Run

namespace Session

/-
  All values on the stack of a session are well formed
  after any requests, and so are those on the stacks of a
  further run at every moment, blocks and their own stacks
  included.
-/
theorem wellFormed_of_reaches
    (requests : List Request)
    (room : Nat) :
    (∀ v ∈ after requests [] room, v.WellFormed) ∧
      ∀ (depth : Nat) (lines : List Text) (m : Run.Moment),
        Run.Reaches
            ⟨depth, Run.tokensOf lines,
              after requests [] room⟩
            m →
          ∀ v ∈ m.stack, v.WellFormed := by
  have hStart : ∀ v ∈ after requests [] room, v.WellFormed :=
    Run.invariant_wellFormed.of_session requests (by simp) room
  refine ⟨hStart, ?_⟩
  intro depth lines m hReaches
  have hMoment :=
    Run.invariant_wellFormed.of_reaches hReaches
      ⟨fun _ _ => trivial, hStart⟩
  exact hMoment.values

/- The stack of a block that defers an operator. -/
theorem wellFormed_of_reaches_block :
    Run.Reaches
        ⟨2, Run.tokensOf ["\x7b0|'+\x7d".toList],
          after [.reset] []⟩
        ⟨1, [], [.deferred ['+']]⟩ ∧
      ∀ v ∈ [Value.deferred ['+']], v.WellFormed := by
  have hTokens :
      Run.tokensOf ["\x7b0|'+\x7d".toList] =
        ["\x7b0|'+\x7d".toList] := by
    decide
  have hLine :
      Block.substitute
          ⟨"\x7b0|'+\x7d".toList, 0, "'+".toList⟩ [] =
        .ok "'+".toList := by
    simp [Block.substitute, Block.fill, Block.insertSelf]
  have hRuns :
      Block.Runs "\x7b0|'+\x7d".toList [] "'+".toList [] :=
    .line rfl rfl hLine
  have hSplit :
      Token.split "'+".toList = ["'+".toList] := by
    decide
  have hReaches :
      Run.Reaches
        ⟨2, Run.tokensOf ["\x7b0|'+\x7d".toList],
          after [.reset] []⟩
        ⟨1, [], [.deferred ['+']]⟩ := by
    rw [hTokens]
    refine .head (.block hRuns) ?_
    rw [hSplit]
    exact .single (.next rfl)
  exact ⟨hReaches,
    (wellFormed_of_reaches [.reset] Run.maxDepth).2 2 _ _
      hReaches⟩

end Session

end StackCalc

import MonkeyTokens.Text.ExtendingMarks
import MonkeyTokens.Text.NonGraphic

/-!
# Hidden characters — those that a debug text writes by number

A character is hidden when a reader could not see it, or could not see it on its own: it has no glyph,
it is a mark that extends the character before it, or it is one of the letters that are drawn as nothing.
-/

namespace MonkeyTokens

namespace Text

/-- The letters that are drawn as nothing, those with the property Default_Ignorable_Code_Point: the fillers
of Hangul. -/
def fillers : Ranges :=
  [(0x115F, 0x1160), (0x3164, 0x3164), (0xFFA0, 0xFFA0)]

theorem ordered_fillers : fillers.ordered = true := by
  decide +kernel

/-- A debug text writes the character by its number. -/
def isHidden (c : Char) : Bool :=
  nonGraphic.covers c.toNat || extendingMarks.covers c.toNat || fillers.covers c.toNat

/-- The hidden characters are those in a range of one of the three tables. -/
theorem isHidden_eq_true_iff {c : Char} :
    isHidden c = true ↔
      ∃ table ∈ [nonGraphic, extendingMarks, fillers], ∃ r ∈ table, r.1 ≤ c.toNat ∧ c.toNat ≤ r.2 := by
  rw [isHidden, Bool.or_eq_true, Bool.or_eq_true, Ranges.covers_eq_true_iff ordered_nonGraphic,
    Ranges.covers_eq_true_iff ordered_extendingMarks, Ranges.covers_eq_true_iff ordered_fillers]
  simp only [List.mem_cons, List.not_mem_nil, or_false, exists_eq_or_imp, exists_eq_left, or_assoc]

end Text

end MonkeyTokens

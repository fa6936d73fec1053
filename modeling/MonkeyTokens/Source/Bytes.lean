import MonkeyTokens.Source.Span

/-!
# Bytes — a source seen as its UTF-8 bytes

Positions, lengths and spans count bytes of the UTF-8 form of a source. This module gives the byte at a
position, the positions where a character starts, and the text of a span, which exists when the span
lies inside the source, is not reversed, and cuts no character.
-/

namespace MonkeyTokens

abbrev Source := String

namespace Source

/-- The number of bytes of a source. -/
def size (source : Source) : Nat :=
  source.utf8ByteSize

/-- The byte at a position, or `none` from the end on. -/
def byteAt? (source : Source) (i : Nat) : Option UInt8 :=
  if h : i < source.utf8ByteSize then some (source.getUTF8Byte ⟨i⟩ h) else none

theorem byteAt?_eq_none_iff {source : Source} {i : Nat} :
    source.byteAt? i = none ↔ source.size ≤ i := by
  unfold byteAt? size
  split <;> simp <;> omega

theorem isSome_byteAt? {source : Source} {i : Nat} :
    (source.byteAt? i).isSome ↔ i < source.size := by
  unfold byteAt? size
  split <;> simp <;> omega

/-! ## Boundaries and slices -/

/-- A character starts at the position, or the source ends there. -/
abbrev IsBoundary (source : Source) (i : Nat) : Prop :=
  String.Pos.Raw.IsValid source ⟨i⟩

def slice? (source : Source) (start stop : Nat) : Option String :=
  if h : start ≤ stop ∧ source.IsBoundary start ∧ source.IsBoundary stop then
    some (@String.extract source ⟨⟨start⟩, h.2.1⟩ ⟨⟨stop⟩, h.2.2⟩)
  else
    none

theorem isSome_slice? {source : Source} {start stop : Nat} :
    (source.slice? start stop).isSome ↔
      start ≤ stop ∧ source.IsBoundary start ∧ source.IsBoundary stop := by
  unfold slice?
  split <;> simp_all

end Source

/-- The text that a span covers, cut at the ends of its range. -/
def Span.textIn? (s : Span) (source : Source) : Option String :=
  source.slice? s.toRange.lower s.toRange.upper

end MonkeyTokens

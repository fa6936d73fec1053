import MonkeyTokens.Source.Bytes

/-!
# Cursor — a position in a source, with one byte of lookahead

A cursor stands on a byte of its source or at the end. The end is the absence of a byte and not a
special byte, so a NUL in the source is a byte like any other.

A new cursor is the result of a first `advance` from a state that has read nothing. A cursor never
moves back, and at the end every movement leaves it as it is.
-/

namespace MonkeyTokens

structure Cursor where
  source : Source
  /-- The position of the byte under the cursor. -/
  pos : Nat
  /-- The position of the byte that the next advance reads. -/
  next : Nat
  /-- The byte under the cursor, or `none` at the end. -/
  current : Option UInt8
  deriving DecidableEq, Repr

namespace Cursor

/-! ## Movement by bytes -/

/-- Move to the next byte, or to the end after the last one. -/
def advance (c : Cursor) : Cursor :=
  if c.next ≤ c.source.size then
    { c with pos := c.next, next := c.next + 1, current := c.source.byteAt? c.next }
  else
    c

/-- A cursor on the first byte of a source. -/
def ofSource (source : Source) : Cursor :=
  advance { source, pos := 0, next := 0, current := none }

def advanceBy : Nat → Cursor → Cursor
  | 0, c => c
  | n + 1, c => advanceBy n c.advance

/-- The byte after the one under the cursor. -/
def peek (c : Cursor) : Option UInt8 :=
  c.source.byteAt? c.next

def isAtEnd (c : Cursor) : Bool :=
  c.current.isNone

/-! ## Movement by characters -/

/-- How many bytes the character has whose first byte is given. A byte that starts no character of
several bytes counts as one. -/
def charWidth (b : UInt8) : Nat :=
  if 0xC0 ≤ b ∧ b ≤ 0xDF then 2
  else if 0xE0 ≤ b ∧ b ≤ 0xEF then 3
  else if 0xF0 ≤ b ∧ b ≤ 0xF7 then 4
  else 1

/-- Move over the character that starts with the byte under the cursor. -/
def advanceChar (c : Cursor) : Cursor :=
  match c.current with
  | none => c
  | some b => c.advanceBy (charWidth b)

/-! ## Movement by runs -/

/-- Move over the longest run of bytes that satisfy `p`. The run ends at the end of the source, where no
byte is left to satisfy anything. -/
def eatWhile (p : UInt8 → Bool) (c : Cursor) : Cursor :=
  if c.current.any p ∧ c.next ≤ c.source.size then
    c.advance.eatWhile p
  else
    c
termination_by c.source.size + 1 - c.next
decreasing_by
  rename_i h
  simp only [advance, h.2, if_true]
  omega

/-! ## The text passed -/

/-- The text from `start` up to the cursor. A cut inside a character yields the empty text; a start
beyond the cursor is a fault. -/
def sliceFrom (c : Cursor) (start : Nat) : Except Fault String :=
  if start ≤ c.pos then
    .ok ((c.source.slice? start c.pos).getD "")
  else
    .error (.sliceBeyond start c.pos)

theorem sliceFrom_of_le {c : Cursor} {start : Nat} (h : start ≤ c.pos) :
    c.sliceFrom start = .ok ((c.source.slice? start c.pos).getD "") :=
  if_pos h

/-- The one reason why there is no text, not even the empty one. -/
theorem sliceFrom_eq_error_iff {c : Cursor} {start : Nat} {fault : Fault} :
    c.sliceFrom start = .error fault ↔ c.pos < start ∧ fault = .sliceBeyond start c.pos := by
  unfold sliceFrom
  split
  case isTrue hle => simp [Nat.not_lt.2 hle]
  case isFalse hgt => simp [Nat.lt_of_not_le hgt, eq_comm]

end Cursor

end MonkeyTokens

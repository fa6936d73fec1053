import MonkeyTokens.Source.Cursor

/-!
# Placed cursors — the state every walk over a source keeps

A cursor is placed when its four fields agree: the next position follows the current one, the current
one is not beyond the end, and the byte under the cursor is the source's. Main statements:

- `placed_ofSource` and `Placed.move`: a new cursor is placed, and every movement keeps it so;
- `pos_le_pos_move`, `pos_le_pos_walk`: no movement goes back, and so no walk does;
- `pos_lt_pos_advanceChar`, `pos_lt_pos_eatWhile`: before the end, a character and a run move on.

`Move` names the movements as data, so that a walk is a list of them.
-/

namespace MonkeyTokens

namespace Cursor

/-- The fields of a cursor agree with each other. -/
structure Placed (c : Cursor) : Prop where
  next_eq : c.next = c.pos + 1
  pos_le : c.pos ≤ c.source.size
  current_eq : c.current = c.source.byteAt? c.pos

/-! ## One advance -/

@[simp] theorem source_advance (c : Cursor) : c.advance.source = c.source := by
  unfold advance
  split <;> rfl

theorem placed_ofSource (source : Source) : (ofSource source).Placed := by
  constructor <;> simp [ofSource, advance]

@[simp] theorem source_ofSource (source : Source) : (ofSource source).source = source := by
  simp [ofSource]

@[simp] theorem pos_ofSource (source : Source) : (ofSource source).pos = 0 := by
  simp [ofSource, advance]

theorem Placed.advance {c : Cursor} (h : c.Placed) : c.advance.Placed := by
  unfold Cursor.advance
  split
  case isTrue hle => exact ⟨rfl, hle, rfl⟩
  case isFalse => exact h

theorem Placed.pos_advance {c : Cursor} (h : c.Placed) :
    c.advance.pos = min (c.pos + 1) c.source.size := by
  have hn := h.next_eq
  have hp := h.pos_le
  unfold Cursor.advance
  split
  case isTrue => simp only; omega
  case isFalse => omega

theorem Placed.isSome_current_iff {c : Cursor} (h : c.Placed) :
    c.current.isSome ↔ c.pos < c.source.size := by
  rw [h.current_eq]
  exact Source.isSome_byteAt?

/-! ## Several advances -/

@[simp] theorem source_advanceBy (n : Nat) (c : Cursor) : (c.advanceBy n).source = c.source := by
  induction n generalizing c with
  | zero => rfl
  | succ n ih => simp [advanceBy, ih]

theorem Placed.advanceBy {c : Cursor} (h : c.Placed) (n : Nat) : (c.advanceBy n).Placed := by
  induction n generalizing c with
  | zero => exact h
  | succ n ih => exact ih h.advance

theorem Placed.pos_advanceBy {c : Cursor} (h : c.Placed) (n : Nat) :
    (c.advanceBy n).pos = min (c.pos + n) c.source.size := by
  induction n generalizing c with
  | zero =>
      have := h.pos_le
      simp only [Cursor.advanceBy]
      omega
  | succ n ih =>
      simp only [Cursor.advanceBy, ih h.advance, h.pos_advance, source_advance]
      omega

/-! ## Characters -/

theorem charWidth_pos (b : UInt8) : 0 < charWidth b := by
  unfold charWidth
  split
  · decide
  · split
    · decide
    · split <;> decide

@[simp] theorem source_advanceChar (c : Cursor) : c.advanceChar.source = c.source := by
  unfold advanceChar
  split <;> simp

theorem Placed.advanceChar {c : Cursor} (h : c.Placed) : c.advanceChar.Placed := by
  unfold Cursor.advanceChar
  split
  · exact h
  · exact h.advanceBy _

theorem Placed.pos_le_pos_advanceChar {c : Cursor} (h : c.Placed) : c.pos ≤ c.advanceChar.pos := by
  have hp := h.pos_le
  unfold Cursor.advanceChar
  split
  · exact Nat.le_refl _
  · rw [h.pos_advanceBy]
    omega

theorem Placed.pos_lt_pos_advanceChar {c : Cursor} (h : c.Placed) (hc : c.current.isSome) :
    c.pos < c.advanceChar.pos := by
  have hlt := h.isSome_current_iff.1 hc
  unfold Cursor.advanceChar
  split
  case h_1 hnone => simp [hnone] at hc
  case h_2 b _ =>
      have := charWidth_pos b
      rw [h.pos_advanceBy]
      omega

/-! ## Runs -/

@[simp] theorem source_eatWhile (p : UInt8 → Bool) (c : Cursor) :
    (c.eatWhile p).source = c.source := by
  fun_induction eatWhile p c with
  | case1 c _ ih => simp [ih]
  | case2 c _ => rfl

theorem Placed.eatWhile {c : Cursor} (h : c.Placed) (p : UInt8 → Bool) :
    (c.eatWhile p).Placed := by
  fun_induction Cursor.eatWhile p c with
  | case1 c _ ih => exact ih h.advance
  | case2 c _ => exact h

theorem Placed.pos_le_pos_eatWhile {c : Cursor} (h : c.Placed) (p : UInt8 → Bool) :
    c.pos ≤ (c.eatWhile p).pos := by
  fun_induction Cursor.eatWhile p c with
  | case1 c _ ih =>
      have h1 := ih h.advance
      have h2 := h.pos_advance
      have h3 := h.pos_le
      omega
  | case2 c _ => exact Nat.le_refl _

/-- A cursor on a byte, here one of a class, can move. -/
theorem Placed.next_le_of_any {c : Cursor} (h : c.Placed) {p : UInt8 → Bool}
    (hp : c.current.any p = true) : c.next ≤ c.source.size := by
  rw [h.next_eq]
  exact h.isSome_current_iff.1 (Option.isSome_of_any hp)

theorem Placed.pos_advance_of_any {c : Cursor} (h : c.Placed) {p : UInt8 → Bool}
    (hp : c.current.any p = true) : c.advance.pos = c.pos + 1 := by
  rw [h.pos_advance]
  exact Nat.min_eq_left (h.isSome_current_iff.1 (Option.isSome_of_any hp))

theorem Placed.eatWhile_of_any {c : Cursor} (h : c.Placed) {p : UInt8 → Bool}
    (hp : c.current.any p = true) : c.eatWhile p = c.advance.eatWhile p := by
  rw [Cursor.eatWhile, if_pos ⟨hp, h.next_le_of_any hp⟩]

/-- A run that holds at least the byte under the cursor moves on. -/
theorem Placed.pos_lt_pos_eatWhile {c : Cursor} (h : c.Placed) {p : UInt8 → Bool}
    (hp : c.current.any p = true) : c.pos < (c.eatWhile p).pos := by
  have hle := h.advance.pos_le_pos_eatWhile p
  rw [h.pos_advance_of_any hp] at hle
  rw [h.eatWhile_of_any hp]
  exact hle

/-! ## Walks -/

inductive Move where
  | advance
  | advanceChar
  | eatWhile (p : UInt8 → Bool)

def move (c : Cursor) : Move → Cursor
  | .advance => c.advance
  | .advanceChar => c.advanceChar
  | .eatWhile p => c.eatWhile p

def walk (c : Cursor) (moves : List Move) : Cursor :=
  moves.foldl move c

theorem Placed.move {c : Cursor} (h : c.Placed) (m : Move) : (c.move m).Placed := by
  cases m with
  | advance => exact h.advance
  | advanceChar => exact h.advanceChar
  | eatWhile p => exact h.eatWhile p

@[simp] theorem source_move (c : Cursor) (m : Move) : (c.move m).source = c.source := by
  cases m <;> simp [Cursor.move]

/-- A walk keeps what each of its movements keeps. -/
theorem Placed.walk {c : Cursor} (h : c.Placed) (moves : List Move) : (c.walk moves).Placed := by
  induction moves generalizing c with
  | nil => exact h
  | cons m moves ih => exact ih (h.move m)

@[simp] theorem source_walk (c : Cursor) (moves : List Move) : (c.walk moves).source = c.source := by
  induction moves generalizing c with
  | nil => rfl
  | cons m moves ih => exact (ih (c.move m)).trans (source_move c m)

theorem Placed.pos_le_pos_move {c : Cursor} (h : c.Placed) (m : Move) : c.pos ≤ (c.move m).pos := by
  cases m with
  | advance =>
      have h1 := h.pos_advance
      have h2 := h.pos_le
      simp only [Cursor.move]
      omega
  | advanceChar => exact h.pos_le_pos_advanceChar
  | eatWhile p => exact h.pos_le_pos_eatWhile p

theorem Placed.pos_le_pos_walk {c : Cursor} (h : c.Placed) (moves : List Move) :
    c.pos ≤ (c.walk moves).pos := by
  induction moves generalizing c with
  | nil => exact Nat.le_refl _
  | cons m moves ih => exact Nat.le_trans (h.pos_le_pos_move m) (ih (h.move m))

end Cursor

end MonkeyTokens

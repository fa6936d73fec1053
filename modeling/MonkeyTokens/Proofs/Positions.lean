import MonkeyTokens.Proofs.Encoding
import MonkeyTokens.Source.Placed

/-!
# Positions — a cursor is a source and a position, and nothing more

A cursor has four fields, but on any walk from the start of a source two of them say what the others do: the source
never changes, and the position fixes the next position and the byte under the cursor. So a cursor is known by its
position, and questions about it are questions about the bytes of the source. Main statements:

- `Placed.eq_of_pos_eq`: cursors of one source at one position are equal;
- `Placed.isAtEnd_iff`, `Placed.peek_eq`: what a cursor answers, by its position;
- `walk_replicate_advance`: several advances as a walk;
- `Placed.move_of_isAtEnd`: the end is never left;
- `walk_agrees_with_bytes`: all of this against the bytes of the characters of a source.
-/

namespace MonkeyTokens

theorem Source.length_bytes (source : Source) : source.bytes.length = source.size := by
  rw [size_eq_width, bytes, Reading.length_flatMap_encode]

namespace Cursor

variable {c d : Cursor}

/-! ## What a position says -/

/-- Cursors of one source at one position are equal. -/
theorem Placed.eq_of_pos_eq (hc : c.Placed) (hd : d.Placed) :
    c.source = d.source → c.pos = d.pos → c = d := by
  intro hsource hpos
  have hnext : c.next = d.next := by rw [hc.next_eq, hd.next_eq, hpos]
  have hcurrent : c.current = d.current := by rw [hc.current_eq, hd.current_eq, hsource, hpos]
  cases c
  cases d
  rw [mk.injEq]
  exact ⟨hsource, hpos, hnext, hcurrent⟩

theorem Placed.isAtEnd_iff (h : c.Placed) : c.isAtEnd = true ↔ c.pos = c.source.size := by
  rw [isAtEnd, Option.isNone_iff_eq_none, h.current_eq, Source.byteAt?_eq_none_iff]
  exact ⟨fun hle => Nat.le_antisymm h.pos_le hle, fun heq => Nat.le_of_eq heq.symm⟩

theorem Placed.peek_eq (h : c.Placed) : c.peek = c.source.byteAt? (c.pos + 1) := by
  rw [peek, h.next_eq]

/-! ## Movements -/

theorem walk_replicate_advance (k : Nat) (c : Cursor) :
    c.walk (List.replicate k .advance) = c.advanceBy k := by
  induction k generalizing c with
  | zero => rfl
  | succ k ih => exact ih c.advance

/-- At the end, a movement goes neither back nor further on. -/
theorem Placed.move_of_isAtEnd (h : c.Placed) (m : Move) : c.isAtEnd = true → c.move m = c := by
  intro hend
  apply (h.move m).eq_of_pos_eq h (source_move c m)
  have hle := (h.move m).pos_le
  rw [source_move, ← h.isAtEnd_iff.1 hend] at hle
  exact Nat.le_antisymm hle (h.pos_le_pos_move m)

/-- Wherever a walk leads, the next position is one further on, the cursor is not beyond the last byte, and it has the
byte at its position before it, a byte of value zero like any other, or none at the end. It looks ahead to the byte
behind that one. No movement goes back or changes the source; as many advances as there are bytes left lead to the
end, and further ones stay there, as every movement does. -/
theorem walk_agrees_with_bytes (source : Source) (moves : List Move) :
    let c := (ofSource source).walk moves
    c.next = c.pos + 1 ∧ c.pos ≤ source.bytes.length ∧ c.current = source.bytes[c.pos]? ∧
      (c.isAtEnd = true ↔ c.pos = source.bytes.length) ∧
      c.peek = source.bytes[c.pos + 1]? ∧
      c.source = source ∧
      (∀ m, (c.move m).source = c.source ∧ c.pos ≤ (c.move m).pos) ∧
      (∀ k, (c.walk (List.replicate k .advance)).pos = min (c.pos + k) source.bytes.length) ∧
      (c.isAtEnd = true → ∀ m, c.move m = c) := by
  intro c
  have h : c.Placed := (placed_ofSource source).walk moves
  have hsource : c.source = source := (source_walk _ _).trans (source_ofSource source)
  refine ⟨h.next_eq, ?_, ?_, ?_, ?_, hsource, fun m => ?_, fun k => ?_, fun hend m => ?_⟩
  · rw [Source.length_bytes, ← hsource]
    exact h.pos_le
  · rw [← Source.byteAt?_eq, ← hsource]
    exact h.current_eq
  · rw [Source.length_bytes, h.isAtEnd_iff, hsource]
  · rw [← Source.byteAt?_eq, h.peek_eq, hsource]
  · exact ⟨source_move c m, h.pos_le_pos_move m⟩
  · rw [walk_replicate_advance, h.pos_advanceBy, Source.length_bytes, hsource]
  · exact h.move_of_isAtEnd m hend

/-- A byte of value zero is passed, a character of two bytes is entered, and the end is met and kept. -/
theorem walk_agrees_with_bytes_sample :
    let c := (ofSource "a\x00é").walk [.eatWhile (· != 0), .advanceChar, .advance, .advanceChar]
    c.isAtEnd = true ∧ c.pos = (Source.bytes "a\x00é").length ∧ c.move (.eatWhile fun _ => true) = c := by
  intro c
  have hend : c.isAtEnd = true := by decide +kernel
  rcases walk_agrees_with_bytes "a\x00é" [.eatWhile (· != 0), .advanceChar, .advance, .advanceChar] with
    ⟨_, _, _, hpos, _, _, _, _, hstays⟩
  exact ⟨hend, hpos.1 hend, hstays hend _⟩

end Cursor

end MonkeyTokens

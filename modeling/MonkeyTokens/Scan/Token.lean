import MonkeyTokens.Scan.ByteClass
import MonkeyTokens.Source.Placed
import MonkeyTokens.Vocabulary.Token

/-!
# Scanning one token

The byte under the cursor decides how far the token reaches:

- a word or a number is a run, and the cursor stops on the first byte after it;
- anything else is one character, or two when an equals sign completes an operator.

The text is cut once the end is known. Cutting may fault in general; `Placed.exists_scan` says that it
never does here, and `Placed.of_scan` that the cursor stays placed and moves on unless the source has
ended.
-/

namespace MonkeyTokens

namespace Cursor

/-! ## Reach and text -/

/-- The kind of a word, once it is known in full. -/
def wordKind (text : String) : Kind :=
  (keyword? text).getD .ident

/-- The cursor after the token that starts with the byte `b` under the cursor, and the kind of the
token, given its text. -/
def reach (c : Cursor) (b : UInt8) : Cursor × (String → Kind) :=
  if Byte.isWordStart b then
    (c.eatWhile Byte.isWord, wordKind)
  else if Byte.isDigit b then
    (c.eatWhile Byte.isDigit, fun _ => .int)
  else
    match Byte.composite? b c.peek with
    | some kind => (c.advance.advanceChar, fun _ => kind)
    | none => (c.advanceChar, fun _ => Byte.single b)

def scan (c : Cursor) : Except Fault (Token × Cursor) :=
  match c.current with
  | none => .ok (.eof, c)
  | some b =>
      let (stop, kind) := c.reach b
      (stop.sliceFrom c.pos).map fun text => (⟨kind text, text⟩, stop)

/-! ## What scanning keeps -/

@[simp] theorem source_reach (c : Cursor) (b : UInt8) : (c.reach b).1.source = c.source := by
  unfold reach
  split
  · simp
  · split
    · simp
    · split <;> simp

theorem Placed.reach {c : Cursor} (h : c.Placed) (b : UInt8) : (c.reach b).1.Placed := by
  unfold Cursor.reach
  split
  · exact h.eatWhile _
  · split
    · exact h.eatWhile _
    · split
      · exact h.advance.advanceChar
      · exact h.advanceChar

/-- A token reaches at least one byte further. -/
theorem Placed.pos_lt_pos_reach {c : Cursor} (h : c.Placed) {b : UInt8} (hb : c.current = some b) :
    c.pos < (c.reach b).1.pos := by
  have hsome : c.current.isSome := by simp [hb]
  unfold Cursor.reach
  split
  case isTrue hw => exact h.pos_lt_pos_eatWhile (by simp [hb, Byte.isWord, hw])
  case isFalse =>
      split
      case isTrue hd => exact h.pos_lt_pos_eatWhile (by simp [hb, hd])
      case isFalse =>
          split
          · have h1 := h.pos_advance
            have h2 := h.isSome_current_iff.1 hsome
            have h3 := h.advance.pos_le_pos_advanceChar
            simp only
            omega
          · exact h.pos_lt_pos_advanceChar hsome

/-- No text that is cut while scanning starts beyond the cursor. -/
theorem Placed.exists_scan {c : Cursor} (h : c.Placed) : ∃ r, c.scan = .ok r := by
  unfold Cursor.scan
  split
  case h_1 => exact ⟨_, rfl⟩
  case h_2 b hb =>
      have hle := Nat.le_of_lt (h.pos_lt_pos_reach hb)
      simp only [sliceFrom_of_le hle]
      exact ⟨_, rfl⟩

theorem Placed.of_scan {c stop : Cursor} {t : Token} (h : c.Placed) (hs : c.scan = .ok (t, stop)) :
    stop.Placed ∧ stop.source = c.source ∧ c.pos ≤ stop.pos ∧
      (t.isEof = false → c.pos < stop.pos) := by
  unfold Cursor.scan at hs
  split at hs
  case h_1 =>
      obtain ⟨rfl, rfl⟩ := Prod.mk.inj (Except.ok.inj hs)
      exact ⟨h, rfl, Nat.le_refl _, fun he => by simp [Token.isEof, Token.eof] at he⟩
  case h_2 b hb =>
      have hlt := h.pos_lt_pos_reach hb
      simp only [sliceFrom_of_le (Nat.le_of_lt hlt)] at hs
      obtain ⟨_, rfl⟩ := Prod.mk.inj (Except.ok.inj hs)
      exact ⟨h.reach b, source_reach c b, Nat.le_of_lt hlt, fun _ => hlt⟩

end Cursor

end MonkeyTokens

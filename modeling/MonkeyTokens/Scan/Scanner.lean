import MonkeyTokens.Scan.Token
import MonkeyTokens.Vocabulary.Located

/-!
# Scanner — reading a source token by token

A scanner is a placed cursor. One step skips blanks and reads one token; it always succeeds, and once the
source has ended it reads the end mark again and again. The result of a step carries the fact that the
rest is shorter unless the end mark was read, which is what every loop over a source needs.
-/

namespace MonkeyTokens

structure Scanner where
  cursor : Cursor
  placed : cursor.Placed

namespace Scanner

def ofSource (source : Source) : Scanner :=
  ⟨.ofSource source, Cursor.placed_ofSource source⟩

def source (s : Scanner) : Source :=
  s.cursor.source

def pos (s : Scanner) : Nat :=
  s.cursor.pos

/-- How many bytes are not read yet. -/
def unread (s : Scanner) : Nat :=
  s.source.size - s.pos

/-- The cursor before the next token, or at the end if there is none. -/
def start (s : Scanner) : Cursor :=
  s.cursor.eatWhile Byte.isBlank

theorem placed_start (s : Scanner) : s.start.Placed :=
  s.placed.eatWhile _

@[simp] theorem source_start (s : Scanner) : s.start.source = s.source :=
  Cursor.source_eatWhile _ _

theorem pos_le_pos_start (s : Scanner) : s.pos ≤ s.start.pos :=
  s.placed.pos_le_pos_eatWhile _

/-- Only blanks are left. The scanner itself does not move. -/
def isFinished (s : Scanner) : Bool :=
  s.start.isAtEnd

/-! ## One step -/

/-- What one step of a scanner reads, where, and the scanner after it. -/
structure Step (s : Scanner) extends Located where
  rest : Scanner
  unread_lt : token.isEof = false → rest.unread < s.unread

def scanned (s : Scanner) : { r : Token × Cursor // s.start.scan = .ok r } :=
  match h : s.start.scan with
  | .ok r => ⟨r, rfl⟩
  | .error _ => absurd s.placed_start.exists_scan (by simp [h])

/-- Skip blanks and read one token, or the end mark if none is left. -/
def step (s : Scanner) : Step s :=
  let ⟨(token, stop), h⟩ := s.scanned
  have kept := s.placed_start.of_scan h
  { token
    span := ⟨s.start.pos, stop.pos⟩
    rest := ⟨stop, kept.1⟩
    unread_lt := by
      intro ht
      have h1 := kept.2.2.2 ht
      have h2 := kept.1.pos_le
      have h3 := s.pos_le_pos_start
      simp only [kept.2.1, source_start] at h2
      simp only [unread, source, pos, kept.2.1, source_start] at *
      omega }

/-- The step is the scan from the start. -/
theorem scan_start (s : Scanner) : s.start.scan = .ok (s.step.token, s.step.rest.cursor) := by
  unfold step
  exact s.scanned.2

@[simp] theorem span_step (s : Scanner) : s.step.span = ⟨s.start.pos, s.step.rest.pos⟩ :=
  rfl

/-- Induction on what is left to read: a step leaves less, unless it reads the end mark. -/
theorem rest_induction {motive : Scanner → Prop}
    (step : ∀ s, (s.step.token.isEof = false → motive s.step.rest) → motive s) (s : Scanner) :
    motive s := by
  induction hn : s.unread using Nat.strongRecOn generalizing s with
  | ind n ih => exact step s fun heof => ih _ (hn ▸ s.step.unread_lt heof) _ rfl

@[simp] theorem source_rest (s : Scanner) : s.step.rest.source = s.source :=
  (s.placed_start.of_scan s.scan_start).2.1.trans s.source_start

end Scanner

end MonkeyTokens

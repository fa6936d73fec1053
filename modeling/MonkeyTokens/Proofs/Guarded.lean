import MonkeyTokens.Proofs.Steps
import MonkeyTokens.Scan.Call
import MonkeyTokens.Scan.Strict

/-!
# Guarded reading — the same readers, with every check of a development build

The readers are repeated here with the guards that a development build has and with two more: a slice
that would cut a character is reported and not replaced by the empty text, and a loop that does not move
is reported and not run for ever. Every operation yields a value or the first `Failure`. Main statements:

- `advance_eq_ok`, `eatWhile_eq_ok`, `advanceChar_eq_ok`: no movement fails while the source is shorter than
  the largest position;
- `sliceFrom_eq_ok`: no slice between two characters fails;
- `step_eq_ok`: a step from between two characters is the step without guards, ends between two
  characters, and reads no empty text.
-/

namespace MonkeyTokens

open Reading

namespace Guarded

/-! ## Guards -/

inductive Failure where
  /-- The counter of the next position exceeds its range. -/
  | overflow
  /-- A slice starts at `start`, beyond the cursor at `pos`. -/
  | sliceBeyond (start pos : Nat)
  /-- A slice from `start` to `pos` does not start and end between characters. -/
  | cutCharacter (start pos : Nat)
  /-- A loop goes on without moving. -/
  | endless
  deriving DecidableEq, Repr

/-- The largest value of a counter of positions, which has 64 bits. -/
def maxPosition : Nat :=
  UInt64.size - 1

/-- The largest number of bytes that a source may have, which fits in a signed number of 64 bits. -/
def maxSize : Nat :=
  UInt64.size / 2 - 1

/-- How many advances a cursor can still make. -/
def remaining (c : Cursor) : Nat :=
  c.source.size + 1 - c.next

def unread (c : Cursor) : Nat :=
  c.source.size - c.pos

/-! ## Cursors -/

def advance (c : Cursor) : Except Failure Cursor :=
  -- A move sets the counter to `next + 1`; at the end it is left alone.
  if c.next ≤ c.source.size ∧ maxPosition ≤ c.next then .error .overflow else .ok c.advance

def ofSource (source : Source) : Except Failure Cursor :=
  advance { source, pos := 0, next := 0, current := none }

def advanceBy : Nat → Cursor → Except Failure Cursor
  | 0, c => .ok c
  | n + 1, c => do advanceBy n (← advance c)

def advanceChar (c : Cursor) : Except Failure Cursor :=
  match c.current with
  | none => .ok c
  | some b => advanceBy (Cursor.charWidth b) c

def eatWhile (p : UInt8 → Bool) (c : Cursor) : Except Failure Cursor :=
  if c.current.any p then
    match advance c with
    | .error failure => .error failure
    | .ok rest => if _h : remaining rest < remaining c then eatWhile p rest else .error .endless
  else
    .ok c
termination_by remaining c

def sliceFrom (c : Cursor) (start : Nat) : Except Failure String :=
  if start ≤ c.pos then
    match c.source.slice? start c.pos with
    | none => .error (.cutCharacter start c.pos)
    | some text => .ok text
  else
    .error (.sliceBeyond start c.pos)

/-! ## One token -/

def reach (c : Cursor) (b : UInt8) : Except Failure (Cursor × (String → Kind)) :=
  if Byte.isWordStart b then do
    return (← eatWhile Byte.isWord c, Cursor.wordKind)
  else if Byte.isDigit b then do
    return (← eatWhile Byte.isDigit c, fun _ => .int)
  else
    match Byte.composite? b c.peek with
    | some kind => do return (← advanceChar (← advance c), fun _ => kind)
    | none => do return (← advanceChar c, fun _ => Byte.single b)

def scan (c : Cursor) : Except Failure (Token × Cursor) :=
  match c.current with
  | none => .ok (.eof, c)
  | some b => do
      let (stop, kind) ← reach c b
      let text ← sliceFrom stop c.pos
      return (⟨kind text, text⟩, stop)

def step (c : Cursor) : Except Failure (Located × Cursor) := do
  let start ← eatWhile Byte.isBlank c
  let (token, stop) ← scan start
  return (⟨token, ⟨start.pos, stop.pos⟩⟩, stop)

def isFinished (c : Cursor) : Except Failure Bool := do
  return (← eatWhile Byte.isBlank c).isAtEnd

/-! ## Items -/

def next (c : Cursor) : Except Failure (Option Token × Cursor) := do
  let (x, rest) ← step c
  return (if x.token.isEof then none else some x.token, rest)

def nth : Nat → Cursor → Except Failure (Option Token × Cursor)
  | 0, c => next c
  | n + 1, c => do
      match ← next c with
      | (none, last) => return (none, last)
      | (some _, rest) => nth n rest

def take : Nat → Cursor → Except Failure (List Token × Cursor)
  | 0, c => return ([], c)
  | n + 1, c => do
      match ← next c with
      | (none, last) => return ([], last)
      | (some t, rest) =>
          let (ts, last) ← take n rest
          return (t :: ts, last)

def drain (c : Cursor) : Except Failure (List Token × Cursor) :=
  match next c with
  | .error failure => .error failure
  | .ok (none, last) => .ok ([], last)
  | .ok (some t, rest) =>
      if _h : unread rest < unread c then do
        let (ts, last) ← drain rest
        return (t :: ts, last)
      else
        .error .endless
termination_by unread c

open Scanner (Call Answer) in
def perform (c : Cursor) : Call → Except Failure (Answer × Cursor)
  | .token => do
      let (x, rest) ← step c
      return (.token x.token, rest)
  | .located => do
      let (x, rest) ← step c
      return (.located x.token x.span, rest)
  | .next => do
      let (t, rest) ← next c
      return (.item t, rest)
  | .nth n => do
      let (t, rest) ← nth n c
      return (.item t, rest)
  | .take n => do
      let (ts, rest) ← take n c
      return (.items ts, rest)
  | .collect => do
      let (ts, rest) ← drain c
      return (.items ts, rest)
  | .count => do
      let (ts, rest) ← drain c
      return (.number ts.length, rest)
  | .last => do
      let (ts, rest) ← drain c
      return (.item ts.getLast?, rest)
  | .pos => return (.number c.pos, c)
  | .isFinished => do return (.flag (← isFinished c), c)

/-! ## Whole sources -/

def readAll (c : Cursor) : Except Failure (List Token) :=
  match step c with
  | .error failure => .error failure
  | .ok (x, rest) =>
      if x.token.isEof then
        .ok [x.token]
      else if _h : unread rest < unread c then do
        return x.token :: (← readAll rest)
      else
        .error .endless
termination_by unread c

def readStrict (c : Cursor) : Except Failure (Except LexicalError (List Token)) :=
  match step c with
  | .error failure => .error failure
  | .ok (x, rest) =>
      if x.token.kind = .illegal then
        .ok (.error (.ofIllegal x.token x.span))
      else if x.token.isEof then
        .ok (.ok [x.token])
      else if _h : unread rest < unread c then do
        return (← readStrict rest).map (x.token :: ·)
      else
        .error .endless
termination_by unread c

def tokenize (source : Source) : Except Failure (List Token) := do
  readAll (← ofSource source)

def tokenizeStrict (source : Source) : Except Failure (Except LexicalError (List Token)) := do
  readStrict (← ofSource source)

/-! ## Movements do not fail -/

variable {c : Cursor}

@[simp] theorem ok_bind {α β : Type} (a : α) (f : α → Except Failure β) :
    (Except.ok a >>= f) = f a :=
  rfl

theorem advance_eq_ok : c.source.size < maxPosition → advance c = .ok c.advance := by
  intro hfit
  have hno : ¬ (c.next ≤ c.source.size ∧ maxPosition ≤ c.next) := by omega
  rw [advance, if_neg hno]

theorem ofSource_eq_ok (source : Source) : ofSource source = .ok (.ofSource source) := by
  have hno : ¬ (0 ≤ source.size ∧ maxPosition ≤ 0) := by
    rintro ⟨-, h⟩
    exact absurd h (by decide)
  rw [ofSource, advance, if_neg hno]
  rfl

theorem advanceBy_eq_ok (n : Nat) :
    c.source.size < maxPosition → advanceBy n c = .ok (c.advanceBy n) := by
  intro hfit
  induction n generalizing c with
  | zero => rfl
  | succ n ih =>
      rw [advanceBy, advance_eq_ok hfit, ok_bind]
      exact ih (by rwa [Cursor.source_advance])

theorem advanceChar_eq_ok :
    c.source.size < maxPosition → advanceChar c = .ok c.advanceChar := by
  intro hfit
  unfold advanceChar Cursor.advanceChar
  cases c.current with
  | none => rfl
  | some b => exact advanceBy_eq_ok _ hfit

/-- A run moves with every byte, so it ends. -/
theorem eatWhile_eq_ok (p : UInt8 → Bool) (h : c.Placed) :
    c.source.size < maxPosition → eatWhile p c = .ok (c.eatWhile p) := by
  fun_induction Cursor.eatWhile p c with
  | case1 c hmove ih =>
      intro hfit
      -- The next position has moved, so the loop is not reported as endless.
      have hnext : c.advance.next = c.next + 1 := by
        rw [Cursor.advance, if_pos hmove.2]
      have hless : remaining c.advance < remaining c := by
        have hroom := hmove.2
        simp only [remaining, hnext, Cursor.source_advance]
        omega
      rw [eatWhile, if_pos hmove.1, advance_eq_ok hfit]
      simp only [hless, dif_pos]
      exact ih h.advance (by rwa [Cursor.source_advance])
  | case2 c hstop =>
      intro _
      -- A placed cursor on a byte can move, so here no byte of the class is left.
      have hout : ¬ c.current.any p = true := by
        intro hp
        exact hstop ⟨hp, h.next_le_of_any hp⟩
      rw [eatWhile, if_neg hout]

theorem reach_eq_ok (b : UInt8) (h : c.Placed) :
    c.source.size < maxPosition → reach c b = .ok (c.reach b) := by
  intro hfit
  have hfit' : c.advance.source.size < maxPosition := by rwa [Cursor.source_advance]
  by_cases hword : Byte.isWordStart b = true
  · simp only [reach, Cursor.reach, if_pos hword, eatWhile_eq_ok _ h hfit, ok_bind]
    rfl
  · by_cases hdigit : Byte.isDigit b = true
    · simp only [reach, Cursor.reach, if_neg hword, if_pos hdigit, eatWhile_eq_ok _ h hfit, ok_bind]
      rfl
    · simp only [reach, Cursor.reach, if_neg hword, if_neg hdigit]
      cases Byte.composite? b c.peek with
      | some kind =>
          simp only [advance_eq_ok hfit, advanceChar_eq_ok hfit', ok_bind]
          rfl
      | none =>
          simp only [advanceChar_eq_ok hfit, ok_bind]
          rfl

/-! ## Slices do not fail -/

/-- A slice passes the guards exactly when it ends at or after its start and cuts no character. -/
theorem exists_sliceFrom_iff {start : Nat} :
    (∃ text, sliceFrom c start = .ok text) ↔
      start ≤ c.pos ∧ c.source.IsBoundary start ∧ c.source.IsBoundary c.pos := by
  rw [← Source.isSome_slice?]
  unfold sliceFrom
  cases hslice : c.source.slice? start c.pos with
  | none => by_cases hle : start ≤ c.pos <;> simp [hle]
  | some text =>
      have hle : start ≤ c.pos := (Source.isSome_slice?.1 (by rw [hslice]; rfl)).1
      simp [hle]

theorem sliceFrom_eq_ok {passed mid left : List Char} (h : c.Between (passed ++ mid) left) :
    sliceFrom c (width passed) = .ok (String.ofList mid) := by
  have hle : width passed ≤ c.pos := by simp [h.pos_eq]
  rw [sliceFrom, if_pos hle, h.pos_eq, Source.slice?_width h.toList_source]

/-- Between characters, guards do not change a scan. -/
theorem scan_eq_ok {passed left : List Char} {t : Token} {stop : Cursor}
    (h : c.Between passed left) (hfit : c.source.size < maxPosition) :
    c.scan = .ok (t, stop) → scan c = .ok (t, stop) := by
  intro hscan
  cases left with
  | nil =>
      -- At the end nothing is cut.
      rw [h.scan_nil] at hscan
      rw [scan, h.current_nil]
      cases hscan
      rfl
  | cons x left =>
      -- The slice is cut from before `x` up to the end of its token, which lies between characters too.
      have hend := h.reachesFirst.between
      rw [Cursor.scan, h.current_cons] at hscan
      simp only [h.pos_eq, hend.sliceFrom] at hscan
      cases hscan
      rw [scan, h.current_cons]
      simp only [reach_eq_ok _ h.placed hfit, ok_bind, h.pos_eq, sliceFrom_eq_ok hend]
      rfl

end Guarded

/-! ## One step -/

namespace Guarded

variable {s : Scanner} {source : Source}

theorem eatWhile_blanks_eq_ok (hfit : source.size < maxPosition) (h : s.Within source) :
    eatWhile Byte.isBlank s.cursor = .ok s.start := by
  have hsource : s.cursor.source = source := h.source_eq
  exact eatWhile_eq_ok _ s.placed (by rwa [hsource])

/-- Between characters, guards do not change a step. -/
theorem step_eq_ok (hfit : source.size < maxPosition) :
    s.Within source → step s.cursor = .ok (s.step.toLocated, s.step.rest.cursor) := by
  intro h
  rcases h.exists_between with ⟨passed, left, hs⟩
  have hfit' : s.start.source.size < maxPosition := by
    rw [Scanner.source_start, h.source_eq]
    exact hfit
  have hscan := scan_eq_ok (Scanner.between_start hs) hfit' s.scan_start
  simp only [step, eatWhile_blanks_eq_ok hfit h, hscan, ok_bind]
  rfl

theorem isFinished_eq_ok (hfit : source.size < maxPosition) :
    s.Within source → isFinished s.cursor = .ok s.isFinished := by
  intro h
  simp only [isFinished, eatWhile_blanks_eq_ok hfit h, ok_bind]
  rfl

end Guarded

end MonkeyTokens

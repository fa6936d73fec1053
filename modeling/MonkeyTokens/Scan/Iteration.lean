import MonkeyTokens.Scan.Stream

/-!
# Iteration — the tokens of a scanner without the end mark

`next` yields a token, or `none` where the end mark is read; after that it yields `none` for good. The
other readers are built on it: they skip some tokens, take some, or take all that are left. A scanner is
a value, so keeping the old one beside the new one gives two readers that do not disturb each other.
-/

namespace MonkeyTokens

namespace Scanner

/-- The token of a step, unless it is the end mark. -/
def Step.item? {s : Scanner} (step : Step s) : Option Token :=
  if step.token.isEof then none else some step.token

theorem Step.not_isEof_of_item? {s : Scanner} {step : Step s} {t : Token}
    (h : step.item? = some t) : step.token.isEof = false := by
  cases he : step.token.isEof with
  | false => rfl
  | true => simp [item?, he] at h

theorem Step.unread_lt_of_item? {s : Scanner} {step : Step s} {t : Token}
    (h : step.item? = some t) : step.rest.unread < s.unread :=
  step.unread_lt (not_isEof_of_item? h)

/-! ## One item -/

def next (s : Scanner) : Logged (Option Token × Scanner) := do
  let step ← s.read
  return (step.item?, step.rest)

/-- The token after `n` others. It ends early if they run out. -/
def nth : Nat → Scanner → Logged (Option Token × Scanner)
  | 0, s => s.next
  | n + 1, s => do
      match ← s.next with
      | (none, last) => return (none, last)
      | (some _, rest) => rest.nth n

/-! ## Several items -/

/-- Up to `n` tokens. Nothing is read for `n = 0`, and nothing after the first `none`. -/
def take : Nat → Scanner → Logged (List Token × Scanner)
  | 0, s => return ([], s)
  | n + 1, s => do
      match ← s.next with
      | (none, last) => return ([], last)
      | (some t, rest) =>
          let (ts, last) ← rest.take n
          return (t :: ts, last)

def drain (s : Scanner) : Logged (List Token × Scanner) := do
  let step ← s.read
  match _h : step.item? with
  | none => return ([], step.rest)
  | some t =>
      let (ts, last) ← step.rest.drain
      return (t :: ts, last)
termination_by s.unread
decreasing_by exact Step.unread_lt_of_item? _h

/-- Reading all items is a loop over `next`, which ends with the first `none`. -/
theorem drain_eq (s : Scanner) :
    s.drain = do
      match ← s.next with
      | (none, last) => return ([], last)
      | (some t, rest) =>
          let (ts, last) ← rest.drain
          return (t :: ts, last) := by
  rw [drain, next, bind_assoc]
  -- Both sides make the same step, and then look at its item.
  refine bind_congr fun step => ?_
  rw [pure_bind]
  split
  case h_1 hnone => rw [hnone]
  case h_2 t hsome => rw [hsome]

theorem yields_next (s : Scanner) : s.next.Yields (s.step.item?, s.step.rest) [s.step.event] :=
  yields_read_bind (Logged.Yields.pure _)

/-- At the end, there is nothing left to yield, and the end mark is read. -/
theorem yields_drain_of_isEof {s : Scanner} :
    s.step.token.isEof = true → s.drain.Yields ([], s.step.rest) [s.step.event] := by
  intro heof
  have hnext := s.yields_next
  rw [Step.item?, if_pos heof] at hnext
  rw [drain_eq]
  exact hnext.bind (Logged.Yields.pure _)

/-- Before the end, there is one token and what is left behind it. -/
theorem yields_drain_of_not_isEof {s last : Scanner} {ts : List Token} {es : List Event} :
    s.step.token.isEof = false → s.step.rest.drain.Yields (ts, last) es →
      s.drain.Yields (s.step.token :: ts, last) (s.step.event :: es) := by
  intro heof hrest
  have hnext := s.yields_next
  rw [Step.item?, if_neg (Bool.eq_false_iff.1 heof)] at hnext
  rw [drain_eq]
  exact hnext.bind (hrest.bind_pure fun r => (s.step.token :: r.1, r.2))

end Scanner

end MonkeyTokens

import MonkeyTokens.Log.Event
import MonkeyTokens.Scan.Scanner

/-!
# Streams — reading a source to its end

Every step that reads is reported, the one that reads the end mark included. `readAll` reads up to and
including the end mark; `tokenize` does so from the start of a source and reports the totals.
-/

namespace MonkeyTokens

def Located.event (x : Located) : Event :=
  .token x.token.kind.name x.span.start x.span.stop

namespace Scanner

/-! ## Reading -/

def read (s : Scanner) : Logged (Step s) := do
  let step := s.step
  Logged.emit step.event
  return step

/-- Read `n` times, end marks included. -/
def readTimes : Nat → Scanner → Logged (List Located × Scanner)
  | 0, s => return ([], s)
  | n + 1, s => do
      let step ← s.read
      let (located, last) ← step.rest.readTimes n
      return (step.toLocated :: located, last)

/-- Read up to and including the first end mark. -/
def readAll (s : Scanner) : Logged (List Located) := do
  let step ← s.read
  if _h : step.token.isEof = false then
    return step.toLocated :: (← step.rest.readAll)
  else
    return [step.toLocated]
termination_by s.unread
decreasing_by exact step.unread_lt _h

def stream (s : Scanner) : List Located :=
  s.readAll.result

/-! ## What reading yields and reports -/

theorem run_read (s : Scanner) (log : Log) :
    s.read.run log = pure (s.step, log.record s.step.event) :=
  rfl

/-- A step is reported before what is made of it. -/
theorem yields_read_bind {α : Type} {s : Scanner} {f : s.Step → Logged α} {a : α}
    {es : List Event} :
    (f s.step).Yields a es → (s.read >>= f).Yields a (s.step.event :: es) := by
  intro hf
  have hread : s.read.Yields s.step [s.step.event] := fun log => s.run_read log
  exact hread.bind hf

/-- Reading once more is a step, and reading from behind it. -/
theorem yields_readTimes_succ {n : Nat} {s last : Scanner} {xs : List Located} {es : List Event} :
    (s.step.rest.readTimes n).Yields (xs, last) es →
      (s.readTimes (n + 1)).Yields (s.step.toLocated :: xs, last) (s.step.event :: es) :=
  fun h => yields_read_bind (h.bind_pure fun r => (s.step.toLocated :: r.1, r.2))

/-- Each token that is read is reported once, whatever the log holds. -/
theorem yields_readTimes (n : Nat) (s : Scanner) :
    (s.readTimes n).Yields (s.readTimes n).result
      ((s.readTimes n).result.1.map Located.event) := by
  induction n generalizing s with
  | zero => exact Logged.Yields.pure _
  | succ n ih =>
      have hall := yields_readTimes_succ (ih s.step.rest)
      rw [hall.result_eq]
      exact hall

theorem result_readTimes_succ (n : Nat) (s : Scanner) :
    (s.readTimes (n + 1)).result =
      (s.step.toLocated :: (s.step.rest.readTimes n).result.1,
        (s.step.rest.readTimes n).result.2) :=
  (yields_readTimes_succ (yields_readTimes n s.step.rest)).result_eq

theorem run_readAll_of_isEof {s : Scanner} (h : s.step.token.isEof = true) (log : Log) :
    s.readAll.run log = ([s.step.toLocated], log.record s.step.event) := by
  rw [readAll]
  simp [run_read, h]
  rfl

theorem run_readAll_of_not_isEof {s : Scanner} (h : s.step.token.isEof = false) (log : Log) :
    s.readAll.run log =
      (s.step.toLocated :: (s.step.rest.readAll.run (log.record s.step.event)).1,
        (s.step.rest.readAll.run (log.record s.step.event)).2) := by
  rw [readAll]
  simp [run_read, h]
  rfl

/-- The tokens do not depend on the log, and each of them is reported once. -/
theorem exists_run_readAll (s : Scanner) :
    ∃ located : List Located, ∀ log : Log,
      s.readAll.run log = (located, log.recordAll (located.map Located.event)) := by
  induction s using rest_induction with
  | step s ih =>
      cases h : s.step.token.isEof with
      | true => exact ⟨[s.step.toLocated], fun log => run_readAll_of_isEof h log⟩
      | false =>
          obtain ⟨located, hrun⟩ := ih h
          refine ⟨s.step.toLocated :: located, fun log => ?_⟩
          rw [run_readAll_of_not_isEof h, hrun]
          rfl

theorem run_readAll (s : Scanner) (log : Log) :
    s.readAll.run log = (s.stream, log.recordAll (s.stream.map Located.event)) := by
  obtain ⟨located, hrun⟩ := s.exists_run_readAll
  have hstream : s.stream = located := congrArg Prod.fst (hrun (.empty .info))
  rw [hstream, hrun]

/-- At the end, the stream is the end mark alone. -/
theorem stream_of_isEof {s : Scanner} (h : s.step.token.isEof = true) :
    s.stream = [s.step.toLocated] :=
  congrArg Prod.fst (run_readAll_of_isEof h (.empty .info))

/-- Before the end, the stream is one token and the stream of the rest. -/
theorem stream_of_not_isEof {s : Scanner} (h : s.step.token.isEof = false) :
    s.stream = s.step.toLocated :: s.step.rest.stream := by
  have hrun := run_readAll_of_not_isEof h (.empty .info)
  rw [run_readAll, run_readAll] at hrun
  exact congrArg Prod.fst hrun

end Scanner

/-! ## Whole sources -/

/-- The tokens of a source, the end mark last, with a report of how many there are. -/
def tokenizeLogged (source : Source) : Logged (List Token) := do
  let located ← (Scanner.ofSource source).readAll
  let tokens := located.map (·.token)
  Logged.emit (.summary tokens.length (tokens.countP (·.kind == .illegal)))
  return tokens

/-- The tokens of a source, the end mark last. Characters that start no token appear as illegal
tokens. -/
def tokenize (source : Source) : List Token :=
  (tokenizeLogged source).result

theorem tokenize_eq_map_stream (source : Source) :
    tokenize source = (Scanner.ofSource source).stream.map (·.token) := by
  have hrun := Scanner.run_readAll (.ofSource source) (.empty .info)
  simp only [tokenize, tokenizeLogged, Logged.result, StateT.run_bind, hrun]
  rfl

end MonkeyTokens

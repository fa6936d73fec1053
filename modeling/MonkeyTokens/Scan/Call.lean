import MonkeyTokens.Scan.Iteration

/-!
# Calls — the requests that a scanner answers, as data

A caller may mix single steps, iteration and questions in any order. `perform` answers one request and
yields the scanner after it; `performAll` answers a list of them, each from where the one before it
stopped.
-/

namespace MonkeyTokens

namespace Scanner

inductive Call where
  /-- The next token, the end mark included. -/
  | token
  /-- The next token and its span, the end mark included. -/
  | located
  | next
  | nth (n : Nat)
  | take (n : Nat)
  | collect
  | count
  | last
  | pos
  | isFinished
  deriving DecidableEq, Repr

inductive Answer where
  | token (t : Token)
  | located (t : Token) (span : Span)
  | item (t : Option Token)
  | items (ts : List Token)
  | number (n : Nat)
  | flag (b : Bool)
  deriving DecidableEq, Repr

def perform (s : Scanner) : Call → Logged (Answer × Scanner)
  | .token => do
      let step ← s.read
      return (.token step.token, step.rest)
  | .located => do
      let step ← s.read
      return (.located step.token step.span, step.rest)
  | .next => do
      let (t, rest) ← s.next
      return (.item t, rest)
  | .nth n => do
      let (t, rest) ← s.nth n
      return (.item t, rest)
  | .take n => do
      let (ts, rest) ← s.take n
      return (.items ts, rest)
  | .collect => do
      let (ts, rest) ← s.drain
      return (.items ts, rest)
  | .count => do
      let (ts, rest) ← s.drain
      return (.number ts.length, rest)
  | .last => do
      let (ts, rest) ← s.drain
      return (.item ts.getLast?, rest)
  | .pos => return (.number s.pos, s)
  | .isFinished => return (.flag s.isFinished, s)

def performAll : List Call → Scanner → Logged (List Answer × Scanner)
  | [], s => return ([], s)
  | call :: calls, s => do
      let (answer, rest) ← s.perform call
      let (answers, last) ← rest.performAll calls
      return (answer :: answers, last)

def afterCalls (source : Source) (calls : List Call) : Scanner :=
  ((ofSource source).performAll calls).result.2

end Scanner

end MonkeyTokens

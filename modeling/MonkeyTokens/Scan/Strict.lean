import MonkeyTokens.Diagnostic.LexicalError
import MonkeyTokens.Scan.Stream

/-!
# Strict reading — failing at the first illegal character

A strict reader stops at the first illegal token and yields the error that it stands for. Without such
a token it yields all tokens, the end mark last. Every step that it makes is reported, the one that
stops it included; totals are not reported.
-/

namespace MonkeyTokens

namespace Scanner

/-- Read up to the end mark, or fail at the first illegal token. -/
def readStrict (s : Scanner) : Logged (Except LexicalError (List Token)) := do
  let step ← s.read
  if step.token.kind = .illegal then
    return .error (.ofIllegal step.token step.span)
  else if _h : step.token.isEof = false then
    return (← step.rest.readStrict).map (step.token :: ·)
  else
    return .ok [step.token]
termination_by s.unread
decreasing_by exact step.unread_lt _h

end Scanner

/-- The tokens of a source, the end mark last, or the error of its first illegal character. -/
def tokenizeStrictLogged (source : Source) : Logged (Except LexicalError (List Token)) :=
  (Scanner.ofSource source).readStrict

def tokenizeStrict (source : Source) : Except LexicalError (List Token) :=
  (tokenizeStrictLogged source).result

end MonkeyTokens

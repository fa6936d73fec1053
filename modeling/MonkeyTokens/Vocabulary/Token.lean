import MonkeyTokens.Vocabulary.Spelling

/-!
# Tokens — a kind and the text it was read from

A token says what was read and how it was spelled. Any kind may stand beside any text; that scanned
tokens pair them properly is a fact about scanning.
-/

namespace MonkeyTokens

structure Token where
  kind : Kind
  text : String
  deriving DecidableEq, Repr

namespace Token

def eof : Token :=
  ⟨.eof, ""⟩

/-- The token is of the kind that marks the end, whatever its text. -/
def isEof (t : Token) : Bool :=
  t.kind == .eof

/-- How a message to a person mentions the token. Where the spelling of the kind varies, the text
stands in it, raw, between backticks. -/
def describe (t : Token) : String :=
  match t.kind with
  | .ident | .int | .illegal => t.kind.name ++ " `" ++ t.text ++ "`"
  | kind => kind.name

instance : ToString Token where
  toString := describe

end Token

end MonkeyTokens

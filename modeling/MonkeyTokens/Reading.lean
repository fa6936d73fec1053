import MonkeyTokens.Vocabulary.Lexeme
import MonkeyTokens.Vocabulary.Located

/-!
# Reading — the tokens of a list of characters

This module describes tokenizing by characters alone: no bytes, no positions in a buffer, no lookahead
state. The first character of a token decides which of the characters after it belong to it, and the
text decides the kind. Spans are sums of the byte widths of the characters passed.
-/

namespace MonkeyTokens

namespace Reading

/-- The number of bytes that characters take. -/
def width : List Char → Nat
  | [] => 0
  | c :: cs => c.utf8Size + width cs

/-- The characters of `cs` that belong to the token that `c` starts before them. -/
def more (c : Char) (cs : List Char) : List Char :=
  if Lexeme.isWordStart c then cs.takeWhile Lexeme.isWord
  else if c.isDigit then cs.takeWhile Char.isDigit
  else if Lexeme.joiners.contains c then (cs.take 1).filter (· == '=')
  else []

/-- The kind of the token that starts with `c` and has the text given. -/
def kindOf (c : Char) (text : String) : Kind :=
  if Lexeme.isWordStart c then (Lexeme.fixedKind? text).getD .ident
  else if c.isDigit then .int
  else (Lexeme.fixedKind? text).getD .illegal

/-- The tokens of characters that start at the byte position `offset`, the end mark last. -/
def tokens (offset : Nat) : List Char → List Located
  | [] => [.eof offset]
  | c :: cs =>
      if Lexeme.isBlank c then
        tokens (offset + c.utf8Size) cs
      else
        let text := c :: more c cs
        let stop := offset + width text
        ⟨⟨kindOf c (String.ofList text), String.ofList text⟩, ⟨offset, stop⟩⟩ ::
          tokens stop (cs.drop (more c cs).length)
termination_by cs => cs.length

end Reading

/-- The tokens of a source with their spans, the end mark last, as its characters give them. -/
def reading (source : String) : List Located :=
  Reading.tokens 0 source.toList

end MonkeyTokens

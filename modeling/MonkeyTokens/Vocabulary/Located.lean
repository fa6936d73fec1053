import MonkeyTokens.Source.Span
import MonkeyTokens.Vocabulary.Token

/-!
# Located tokens — a token and where it stands

Places stand beside tokens and not inside them, so that equal tokens at two places are equal.
-/

namespace MonkeyTokens

structure Located where
  token : Token
  span : Span
  deriving DecidableEq, Repr

namespace Located

/-- The end mark, at the position where a source ends. -/
def eof (offset : Nat) : Located :=
  ⟨.eof, .point offset⟩

/-- The same token, further on in the source. -/
def shift (x : Located) (offset : Nat) : Located :=
  ⟨x.token, ⟨x.span.start + offset, x.span.stop + offset⟩⟩

end Located

end MonkeyTokens

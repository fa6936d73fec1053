import MonkeyTokens.Source.Span
import MonkeyTokens.Text.Hidden
import MonkeyTokens.Text.Quoted
import MonkeyTokens.Vocabulary.Token

/-!
# Lexical errors — what is wrong with a source, and where

Reading never fails: a character that starts no token becomes an illegal token. A caller that wants a
failure instead turns the illegal token into a lexical error, which says where and what.
-/

namespace MonkeyTokens

inductive Defect where
  /-- A character that starts no token. -/
  | illegalCharacter (found : Char)
  deriving DecidableEq, Repr

structure LexicalError where
  span : Span
  defect : Defect
  deriving DecidableEq, Repr

namespace LexicalError

def illegalCharacter (span : Span) (found : Char) : LexicalError :=
  ⟨span, .illegalCharacter found⟩

/-- The error of an illegal token. It names the first character of the text, and the replacement
character when the text is empty. -/
def ofIllegal (t : Token) (span : Span) : LexicalError :=
  illegalCharacter span (t.text.toList.headD '\uFFFD')

end LexicalError

/-! ## Messages -/

def Defect.messageWith (hidden : Char → Bool) : Defect → String
  | illegalCharacter found => "illegal character " ++ Text.quotedChar hidden found

def Defect.message : Defect → String :=
  messageWith Text.isHidden

def LexicalError.messageWith (hidden : Char → Bool) (e : LexicalError) : String :=
  e.defect.messageWith hidden ++ " at " ++ e.span.text

theorem LexicalError.messageWith_illegalCharacter (hidden : Char → Bool) (s : Span) (c : Char) :
    (illegalCharacter s c).messageWith hidden =
      "illegal character " ++ Text.quotedChar hidden c ++ " at " ++ s.text :=
  rfl

def LexicalError.message : LexicalError → String :=
  messageWith Text.isHidden

end MonkeyTokens

import MonkeyTokens.Diagnostic.LexicalError
import MonkeyTokens.Scan.Scanner

/-!
# Debug texts — values written out with their fields

A debug text names the type and every field of a value, with quoted texts. Each comes in two forms: for
any set of hidden characters, and for the usual one.
-/

namespace MonkeyTokens

/-! ## Tokens and errors -/

/-- The label of the kind, and the quoted text between parentheses. -/
def Token.debugWith (hidden : Char → Bool) (t : Token) : String :=
  t.kind.label ++ "(" ++ Text.quotedString hidden t.text ++ ")"

def Token.debug : Token → String :=
  debugWith Text.isHidden

def Defect.debugWith (hidden : Char → Bool) : Defect → String
  | illegalCharacter found =>
      "IllegalCharacter \x7b found: " ++ Text.quotedChar hidden found ++ " \x7d"

def LexicalError.debugWith (hidden : Char → Bool) (e : LexicalError) : String :=
  "LexError \x7b span: " ++ e.span.text ++ ", kind: " ++ e.defect.debugWith hidden ++ " \x7d"

theorem LexicalError.debugWith_illegalCharacter (hidden : Char → Bool) (s : Span) (c : Char) :
    (illegalCharacter s c).debugWith hidden =
      "LexError \x7b span: " ++ s.text ++ ", kind: " ++
        ("IllegalCharacter \x7b found: " ++ Text.quotedChar hidden c ++ " \x7d") ++ " \x7d" :=
  rfl

def LexicalError.debug : LexicalError → String :=
  debugWith Text.isHidden

/-! ## Cursors and scanners -/

def Cursor.debugWith (hidden : Char → Bool) (c : Cursor) : String :=
  let current :=
    match c.current with
    | none => "None"
    | some b => "Some(" ++ toString b.toNat ++ ")"
  "Cursor \x7b source: " ++ Text.quotedString hidden c.source ++ ", pos: " ++ toString c.pos ++
    ", next_pos: " ++ toString c.next ++ ", current: " ++ current ++ " \x7d"

def Cursor.debug : Cursor → String :=
  debugWith Text.isHidden

def Scanner.debugWith (hidden : Char → Bool) (s : Scanner) : String :=
  "Scanner \x7b cursor: " ++ s.cursor.debugWith hidden ++ " \x7d"

def Scanner.debug : Scanner → String :=
  debugWith Text.isHidden

end MonkeyTokens

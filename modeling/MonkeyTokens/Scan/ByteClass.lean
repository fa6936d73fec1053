import MonkeyTokens.Vocabulary.Kind

/-!
# Byte classes — what the first byte of a token says about it

All classes are of ASCII. A byte of a character outside ASCII is in none of them, so a run never stops
inside such a character and such a character starts no legal token.
-/

namespace MonkeyTokens

namespace Byte

/-! ## Classes -/

/-- Space, tab, line feed and carriage return are skipped between tokens. -/
def isBlank (b : UInt8) : Bool :=
  b == ' '.toUInt8 || b == '\t'.toUInt8 || b == '\n'.toUInt8 || b == '\r'.toUInt8

def isWordStart (b : UInt8) : Bool :=
  ('a'.toUInt8 ≤ b && b ≤ 'z'.toUInt8) || ('A'.toUInt8 ≤ b && b ≤ 'Z'.toUInt8) || b == '_'.toUInt8

def isDigit (b : UInt8) : Bool :=
  '0'.toUInt8 ≤ b && b ≤ '9'.toUInt8

def isWord (b : UInt8) : Bool :=
  isWordStart b || isDigit b

/-! ## Symbols -/

/-- The kind of the one-character token that starts with the byte. -/
def single (b : UInt8) : Kind :=
  match Char.ofUInt8 b with
  | '=' => .assign
  | '!' => .bang
  | '<' => .lt
  | '>' => .gt
  | '+' => .plus
  | '-' => .minus
  | '*' => .asterisk
  | '/' => .slash
  | ',' => .comma
  | ';' => .semicolon
  | '(' => .lParen
  | ')' => .rParen
  | '\x7b' => .lBrace
  | '\x7d' => .rBrace
  | _ => .illegal

/-- The kind that the byte makes together with an equals sign after it. -/
def withEquals? (b : UInt8) : Option Kind :=
  match Char.ofUInt8 b with
  | '=' => some .eq
  | '!' => some .notEq
  | '<' => some .ltEq
  | '>' => some .gtEq
  | _ => none

/-- The kind of the two-character operator made of the byte and the one after it. -/
def composite? (b : UInt8) (following : Option UInt8) : Option Kind :=
  if following = some '='.toUInt8 then withEquals? b else none

end Byte

end MonkeyTokens

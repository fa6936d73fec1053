import MonkeyTokens.Vocabulary.Kind

/-!
# Spelling — what kinds are written as, and what they are called

A kind has up to three texts:

- `lexeme?` : the one spelling of its tokens, where there is one;
- `name`    : what it is called in a message to a person;
- `label`   : what it is called in a debug text.

`keyword?` goes the other way, from a spelling to the reserved word it is.
-/

namespace MonkeyTokens

namespace Kind

/-! ## Fixed spellings -/

/-- The spelling of the tokens of a kind. Identifiers, integers and illegal characters have varying
spellings, and the end of the source has none. -/
def lexeme? : Kind → Option String
  | assign => some "="
  | plus => some "+"
  | minus => some "-"
  | bang => some "!"
  | asterisk => some "*"
  | slash => some "/"
  | lt => some "<"
  | gt => some ">"
  | eq => some "=="
  | notEq => some "!="
  | ltEq => some "<="
  | gtEq => some ">="
  | comma => some ","
  | semicolon => some ";"
  | lParen => some "("
  | rParen => some ")"
  | lBrace => some "\x7b"
  | rBrace => some "\x7d"
  | fnKeyword => some "fn"
  | letKeyword => some "let"
  | trueKeyword => some "true"
  | falseKeyword => some "false"
  | ifKeyword => some "if"
  | elseKeyword => some "else"
  | returnKeyword => some "return"
  | ident | int | illegal | eof => none

/-- The reserved words, in the order of their codes. -/
def keywords : List Kind :=
  [fnKeyword, letKeyword, trueKeyword, falseKeyword, ifKeyword, elseKeyword, returnKeyword]

theorem mem_keywords_iff {k : Kind} : k ∈ keywords ↔ k.isKeyword = true := by
  cases k <;> decide

/-! ## Names -/

/-- The name of a kind in a message: its spelling between backticks, or a few words where the
spelling varies. -/
def name : Kind → String
  | ident => "identifier"
  | int => "integer literal"
  | assign => "`=`"
  | plus => "`+`"
  | minus => "`-`"
  | bang => "`!`"
  | asterisk => "`*`"
  | slash => "`/`"
  | lt => "`<`"
  | gt => "`>`"
  | eq => "`==`"
  | notEq => "`!=`"
  | ltEq => "`<=`"
  | gtEq => "`>=`"
  | comma => "`,`"
  | semicolon => "`;`"
  | lParen => "`(`"
  | rParen => "`)`"
  | lBrace => "`\x7b`"
  | rBrace => "`\x7d`"
  | fnKeyword => "`fn`"
  | letKeyword => "`let`"
  | trueKeyword => "`true`"
  | falseKeyword => "`false`"
  | ifKeyword => "`if`"
  | elseKeyword => "`else`"
  | returnKeyword => "`return`"
  | illegal => "illegal character"
  | eof => "end of file"

def label : Kind → String
  | ident => "Ident"
  | int => "Int"
  | assign => "Assign"
  | plus => "Plus"
  | minus => "Minus"
  | bang => "Bang"
  | asterisk => "Asterisk"
  | slash => "Slash"
  | lt => "Lt"
  | gt => "Gt"
  | eq => "Eq"
  | notEq => "NotEq"
  | ltEq => "LtEq"
  | gtEq => "GtEq"
  | comma => "Comma"
  | semicolon => "Semicolon"
  | lParen => "LParen"
  | rParen => "RParen"
  | lBrace => "LBrace"
  | rBrace => "RBrace"
  | fnKeyword => "Function"
  | letKeyword => "Let"
  | trueKeyword => "True"
  | falseKeyword => "False"
  | ifKeyword => "If"
  | elseKeyword => "Else"
  | returnKeyword => "Return"
  | illegal => "Illegal"
  | eof => "Eof"

def ofLabel? (text : String) : Option Kind :=
  all.find? fun k => k.label == text

theorem ofLabel?_label (k : Kind) : ofLabel? k.label = some k := by
  cases k <;> decide

theorem label_injective {k l : Kind} (h : k.label = l.label) : k = l := by
  have hk := ofLabel?_label k
  rw [h, ofLabel?_label] at hk
  exact (Option.some.inj hk).symm

end Kind

/-! ## Reserved words -/

/-- The reserved word spelled exactly so, letter case included. A text is compared only with the reserved
words of as many bytes, and with none if it has fewer than two bytes or more than six. -/
def keyword? (text : String) : Option Kind :=
  if 2 ≤ text.utf8ByteSize ∧ text.utf8ByteSize ≤ 6 then
    match text.utf8ByteSize with
    | 2 =>
        match text with
        | "fn" => some .fnKeyword
        | "if" => some .ifKeyword
        | _ => none
    | 3 =>
        match text with
        | "let" => some .letKeyword
        | _ => none
    | 4 =>
        match text with
        | "true" => some .trueKeyword
        | "else" => some .elseKeyword
        | _ => none
    | 5 =>
        match text with
        | "false" => some .falseKeyword
        | _ => none
    | 6 =>
        match text with
        | "return" => some .returnKeyword
        | _ => none
    | _ => none
  else
    none

end MonkeyTokens

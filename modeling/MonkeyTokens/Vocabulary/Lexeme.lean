import MonkeyTokens.Vocabulary.Token

/-!
# Lexemes — the written forms of tokens, by characters

This module says what the tokens of a source look like, without saying how they are found. A character is
blank, part of a word, a symbol, or illegal. A lexeme is a fixed spelling, a word, a number, or one
illegal character, and a proper token is one whose text is a lexeme of its kind.

Two proper tokens glue when their texts, written side by side, would be read in another way.
-/

namespace MonkeyTokens

namespace Lexeme

/-! ## Characters -/

/-- The characters that separate tokens and belong to none. -/
def isBlank (c : Char) : Bool :=
  c == ' ' || c == '\t' || c == '\n' || c == '\r'

def isWordStart (c : Char) : Bool :=
  c.isAlpha || c == '_'

def isWord (c : Char) : Bool :=
  isWordStart c || c.isDigit

/-- The characters that form operators and delimiters. -/
def symbols : List Char :=
  ['=', '!', '<', '>', '+', '-', '*', '/', ',', ';', '(', ')', '\x7b', '\x7d']

/-- The characters that form an operator with an equals sign after them. -/
def joiners : List Char :=
  ['=', '!', '<', '>']

/-- The characters that no legal token holds and that separate none. -/
def isIllegal (c : Char) : Bool :=
  !(isBlank c || isWord c || symbols.contains c)

/-! ## Texts -/

/-- A word: one character that starts words, then characters that continue them. -/
def isWordText : List Char → Bool
  | [] => false
  | c :: cs => isWordStart c && cs.all isWord

def isNumberText (cs : List Char) : Bool :=
  !cs.isEmpty && cs.all Char.isDigit

def isIllegalText : List Char → Bool
  | [c] => isIllegal c
  | _ => false

/-- The kind that is always spelled so. -/
def fixedKind? (text : String) : Option Kind :=
  Kind.all.find? fun k => k.lexeme? == some text

/-- The text is the written form of some token. -/
def isLexeme (cs : List Char) : Bool :=
  (fixedKind? (String.ofList cs)).isSome || isWordText cs || isNumberText cs || isIllegalText cs

end Lexeme

/-! ## Tokens -/

namespace Token

/-- The text is a written form of the kind. A reserved word is no identifier. -/
def isProper (t : Token) : Bool :=
  match t.kind with
  | .ident => Lexeme.isWordText t.text.toList && (Lexeme.fixedKind? t.text).isNone
  | .int => Lexeme.isNumberText t.text.toList
  | .illegal => Lexeme.isIllegalText t.text.toList
  | kind => kind.lexeme?.isSome && kind.lexeme? == some t.text

end Token

namespace Kind

/-- A token of the first kind and one of the second, written side by side, are read in another way:
two runs would be one run, or an equals sign would complete an operator. -/
def glues (k l : Kind) : Bool :=
  ((k == ident || k.isKeyword) && (l == ident || l.isKeyword || l == int)) ||
    (k == int && l == int) ||
    ((k == assign || k == bang || k == lt || k == gt) && (l == assign || l == eq))

end Kind

end MonkeyTokens

/-!
# Quoted text — characters between quotation marks, escaped one by one

Each character is written on its own:

- NUL, tab, line feed, carriage return and the backslash as a backslash and one sign;
- the quotation mark in use as a backslash and the mark; the other mark stays as it is;
- a hidden character as `\u` and its number between braces, in hexadecimal without leading zeros;
- any other character as itself.

Which characters are hidden is a parameter: no law of quoting depends on it.
-/

namespace MonkeyTokens

namespace Text

/-- The number in hexadecimal, in lower case and without leading zeros. -/
def hex (n : Nat) : List Char :=
  Nat.toDigits 16 n

/-- The written form of a character between two quotation marks `quote`. -/
def escape (hidden : Char → Bool) (quote c : Char) : List Char :=
  if c = '\x00' then ['\\', '0']
  else if c = '\t' then ['\\', 't']
  else if c = '\n' then ['\\', 'n']
  else if c = '\r' then ['\\', 'r']
  else if c = '\\' then ['\\', '\\']
  else if c = quote then ['\\', quote]
  else if hidden c then ['\\', 'u', '\x7b'] ++ hex c.toNat ++ ['\x7d']
  else [c]

/-- The written form of characters between two quotation marks, the marks included. -/
def quoted (hidden : Char → Bool) (quote : Char) (cs : List Char) : String :=
  String.ofList (quote :: (cs.flatMap (escape hidden quote) ++ [quote]))

def quotedString (hidden : Char → Bool) (s : String) : String :=
  quoted hidden '\x22' s.toList

def quotedChar (hidden : Char → Bool) (c : Char) : String :=
  quoted hidden '\x27' [c]

end Text

end MonkeyTokens

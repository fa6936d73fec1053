/-!
# Kinds — the closed set of token categories of Monkey

Every kind has a one-byte code. The codes lie in one range per family, with gaps between the ranges:

- `0–15`    : literals
- `16–31`   : operators of one character
- `32–47`   : operators of two characters
- `48–63`   : delimiters
- `64–95`   : keywords
- `254–255` : an illegal character, the end of the source

So a family is a test on the code, and kinds are ordered by their codes. The statements say that the
code determines the kind and that `Kind.all` misses none.
-/

namespace MonkeyTokens

inductive Kind where
  | ident
  | int
  | assign
  | plus
  | minus
  | bang
  | asterisk
  | slash
  | lt
  | gt
  | eq
  | notEq
  | ltEq
  | gtEq
  | comma
  | semicolon
  | lParen
  | rParen
  | lBrace
  | rBrace
  | fnKeyword
  | letKeyword
  | trueKeyword
  | falseKeyword
  | ifKeyword
  | elseKeyword
  | returnKeyword
  | illegal
  | eof
  deriving DecidableEq, Repr

namespace Kind

/-! ## Codes -/

def code : Kind → UInt8
  | ident => 0
  | int => 1
  | assign => 16
  | plus => 17
  | minus => 18
  | bang => 19
  | asterisk => 20
  | slash => 21
  | lt => 22
  | gt => 23
  | eq => 32
  | notEq => 33
  | ltEq => 34
  | gtEq => 35
  | comma => 48
  | semicolon => 49
  | lParen => 50
  | rParen => 51
  | lBrace => 52
  | rBrace => 53
  | fnKeyword => 64
  | letKeyword => 65
  | trueKeyword => 66
  | falseKeyword => 67
  | ifKeyword => 68
  | elseKeyword => 69
  | returnKeyword => 70
  | illegal => 254
  | eof => 255

/-- Every kind, in the order of the codes. -/
def all : List Kind :=
  [ident, int, assign, plus, minus, bang, asterisk, slash, lt, gt, eq, notEq, ltEq, gtEq, comma,
    semicolon, lParen, rParen, lBrace, rBrace, fnKeyword, letKeyword, trueKeyword, falseKeyword,
    ifKeyword, elseKeyword, returnKeyword, illegal, eof]

theorem mem_all (k : Kind) : k ∈ all := by
  cases k <;> decide

theorem code_injective {k l : Kind} (h : k.code = l.code) : k = l := by
  revert h
  cases k <;> cases l <;> decide

/-! ## Families -/

def isLiteral (k : Kind) : Bool :=
  k.code < 16

/-- Operators of one or of two characters. -/
def isOperator (k : Kind) : Bool :=
  16 ≤ k.code && k.code ≤ 47

def isCompositeOperator (k : Kind) : Bool :=
  32 ≤ k.code && k.code ≤ 47

def isDelimiter (k : Kind) : Bool :=
  48 ≤ k.code && k.code ≤ 63

def isKeyword (k : Kind) : Bool :=
  64 ≤ k.code && k.code ≤ 95

/-! ## Order -/

instance : Ord Kind where
  compare k l := compare k.code l.code

theorem compare_eq_iff {k l : Kind} : compare k l = .eq ↔ k = l := by
  cases k <;> cases l <;> decide

def sort (kinds : List Kind) : List Kind :=
  kinds.mergeSort fun k l => k.code ≤ l.code

theorem sort_perm (kinds : List Kind) : (sort kinds).Perm kinds :=
  List.mergeSort_perm kinds _

theorem sort_sorted (kinds : List Kind) :
    (sort kinds).Pairwise fun k l => k.code ≤ l.code := by
  have trans (a b c : Kind) (hab : decide (a.code ≤ b.code) = true)
      (hbc : decide (b.code ≤ c.code) = true) : decide (a.code ≤ c.code) = true := by
    simp only [decide_eq_true_eq] at *
    exact UInt8.le_trans hab hbc
  have total (a b : Kind) : (decide (a.code ≤ b.code) || decide (b.code ≤ a.code)) = true := by
    simpa using UInt8.le_total a.code b.code
  simpa [sort] using List.pairwise_mergeSort trans total kinds

end Kind

end MonkeyTokens

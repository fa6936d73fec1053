/-!
# Faults — requests that have no answer

Asking for the length of a range that ends before it starts, or for the text from a position that has
not been reached yet, is a mistake of the caller. Such a request yields a `Fault` and no value.
-/

namespace MonkeyTokens

inductive Fault where
  /-- The length of a range that ends before it starts. -/
  | reversedLength
  /-- The text from `start` up to the earlier position `pos`. -/
  | sliceBeyond (start pos : Nat)
  deriving DecidableEq, Repr

def Fault.message : Fault → String
  | reversedLength => "attempt to subtract with overflow"
  | sliceBeyond start pos => "slice start " ++ toString start ++ " exceeds " ++ toString pos

end MonkeyTokens

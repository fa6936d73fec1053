import MonkeyTokens.Source.Fault

/-!
# Spans — half-open ranges of byte positions

A span says where a stretch of source lies. Spans travel beside tokens and not inside them, so that two
tokens of one kind and text are equal wherever they stand. Nothing forbids a span that ends before it
starts; only its length has no value.
-/

namespace MonkeyTokens

/-- The positions from `start` up to, and without, `stop`. -/
structure Span where
  start : Nat
  stop : Nat
  deriving DecidableEq, Repr

namespace Span

/-- The empty span at the start of the source. -/
instance : Inhabited Span where
  default := ⟨0, 0⟩

def point (offset : Nat) : Span :=
  ⟨offset, offset⟩

/-- How many positions the span holds; a span that ends before it starts has no length. -/
def length (s : Span) : Except Fault Nat :=
  if s.start ≤ s.stop then .ok (s.stop - s.start) else .error .reversedLength

def isEmpty (s : Span) : Bool :=
  s.start == s.stop

def contains (s : Span) (offset : Nat) : Bool :=
  s.start ≤ offset && offset < s.stop

def merge (s t : Span) : Span :=
  ⟨min s.start t.start, max s.stop t.stop⟩

/-! ## Ranges -/

def toRange (s : Span) : Std.Rco Nat :=
  s.start...s.stop

def ofRange (r : Std.Rco Nat) : Span :=
  ⟨r.lower, r.upper⟩

@[simp] theorem lower_toRange (s : Span) : s.toRange.lower = s.start :=
  rfl

@[simp] theorem upper_toRange (s : Span) : s.toRange.upper = s.stop :=
  rfl

@[simp] theorem ofRange_toRange (s : Span) : ofRange s.toRange = s :=
  rfl

/-! ## Text -/

/-- The two ends in decimal, with two dots between them. -/
def text (s : Span) : String :=
  toString s.start ++ ".." ++ toString s.stop

instance : ToString Span where
  toString := text

end Span

end MonkeyTokens

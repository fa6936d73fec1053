import MonkeyTokens.Proofs.Between

/-!
# Boundaries — moving by characters, from boundaries and from inside characters

A cursor that moves by bytes, or over a run of any class of bytes, may stop inside a character. There it sees a
byte that starts no character and so counts for itself alone, which brings the cursor back to the next boundary
byte by byte. Main statements:

- `charWidth_of_not_first`, `not_first_of_not_isBoundary`: what a byte inside a character looks like;
- `exists_isBoundary_add`: a boundary is at most three bytes away;
- `isNextBoundary_advanceChar`, `pos_advanceChar_of_not_isBoundary`: where one character leads to;
- `exists_walk_advanceChar`: moving by characters meets the boundaries ahead;
- `advanceChar_walks_boundaries`: all of this for any walk from the start of a source.
-/

namespace MonkeyTokens

open Reading (width)

/-! ## Bytes inside characters -/

/-- Only a byte that starts a character counts for more than itself. -/
theorem Byte.charWidth_of_not_first {b : UInt8} :
    ¬ b.IsUTF8FirstByte → Cursor.charWidth b = 1 := by
  have hall : ∀ n < 256, ¬ (UInt8.ofNat n).IsUTF8FirstByte →
      Cursor.charWidth (UInt8.ofNat n) = 1 := by
    decide +kernel
  have hb := hall b.toNat b.toNat_lt
  rwa [UInt8.ofNat_toNat] at hb

/-- A byte inside characters lies in one of them. -/
theorem Reading.exists_char_at {cs : List Char} {i : Nat} :
    i < width cs → ∃ pre x post, cs = pre ++ x :: post ∧ width pre ≤ i ∧ i < width pre + x.utf8Size := by
  induction cs generalizing i with
  | nil => simp
  | cons c cs ih =>
      intro hi
      by_cases hfirst : i < c.utf8Size
      · exact ⟨[], c, cs, rfl, Nat.zero_le _, by simpa using hfirst⟩
      · -- The byte lies behind `c`, as many bytes further on.
        obtain ⟨j, rfl⟩ := Nat.exists_eq_add_of_le (Nat.le_of_not_lt hfirst)
        rw [width_cons] at hi
        rcases ih (Nat.lt_of_add_lt_add_left hi) with ⟨pre, x, post, rfl, hle, hlt⟩
        refine ⟨c :: pre, x, post, rfl, ?_, ?_⟩
        · rw [width_cons]
          omega
        · rw [width_cons]
          omega

/-! ## Boundaries of a source -/

namespace Source

variable {source : Source} {i j : Nat}

theorem isBoundary_size : source.IsBoundary source.size :=
  String.Pos.Raw.isValid_iff_isUTF8FirstByte.2 (.inl rfl)

/-- The byte under a position that is no boundary starts no character. -/
theorem not_first_of_not_isBoundary {b : UInt8} :
    ¬ source.IsBoundary i → source.byteAt? i = some b → ¬ b.IsUTF8FirstByte := by
  intro hi hb hfirst
  have hlt : i < source.utf8ByteSize := isSome_byteAt?.1 (by simp [hb])
  refine hi (String.Pos.Raw.isValid_iff_isUTF8FirstByte.2 (.inr ⟨hlt, ?_⟩))
  rw [byteAt?, dif_pos hlt] at hb
  rwa [Option.some.inj hb]

/-- A boundary is at most three bytes away, since no character has more than four. -/
theorem exists_isBoundary_add : i ≤ source.size → ∃ n ≤ 3, source.IsBoundary (i + n) := by
  intro hi
  rcases Nat.eq_or_lt_of_le hi with rfl | hlt
  · exact ⟨0, by omega, isBoundary_size⟩
  · rw [size_eq_width] at hlt
    rcases Reading.exists_char_at hlt with ⟨pre, x, post, hchars, hle, hlt⟩
    have hsize := x.utf8Size_le_four
    rcases Nat.eq_or_lt_of_le hle with rfl | hinside
    · exact ⟨0, by omega, isBoundary_iff.2 ⟨pre, x :: post, hchars, rfl⟩⟩
    · -- The position is inside `x`, which ends on a boundary.
      refine ⟨width pre + x.utf8Size - i, by omega, ?_⟩
      refine isBoundary_iff.2 ⟨pre ++ [x], post, by simp [hchars], ?_⟩
      simp only [Reading.width_append, Reading.width_cons, Reading.width_nil]
      omega

/-- The boundary `j` comes after `i`, and no other one comes between. -/
structure IsNextBoundary (source : Source) (i j : Nat) : Prop where
  isBoundary : source.IsBoundary j
  lt : i < j
  le_of_lt : ∀ k, source.IsBoundary k → i < k → j ≤ k

/-- The next boundary after the start of a character is where the character ends. -/
theorem isNextBoundary_width {pre post : List Char} {x : Char} :
    source.toList = pre ++ x :: post → source.IsNextBoundary (width pre) (width (pre ++ [x])) := by
  intro hchars
  refine ⟨isBoundary_iff.2 ⟨pre ++ [x], post, by simp [hchars], rfl⟩, ?_, ?_⟩
  · have hpos := x.utf8Size_pos
    simpa using hpos
  · intro k hk hlt
    rcases isBoundary_iff.1 hk with ⟨upto, rest, hupto, rfl⟩
    rcases Reading.exists_append_of_width_le (hchars.symm.trans hupto) (Nat.le_of_lt hlt) with
      ⟨mid, rfl⟩
    -- What comes between the two boundaries starts with `x`.
    cases mid with
    | nil => simp at hlt
    | cons y mid =>
        rw [hchars, List.append_assoc] at hupto
        obtain ⟨rfl, _⟩ := List.cons.inj (List.append_cancel_left hupto)
        simp

end Source

/-! ## One character -/

namespace Cursor

variable {c : Cursor} {passed left : List Char} {x : Char}

theorem Between.advanceChar_nil (h : c.Between passed []) : c.advanceChar = c := by
  rw [Cursor.advanceChar, h.current_nil]

theorem Between.isNextBoundary_advanceChar (h : c.Between passed (x :: left)) :
    c.source.IsNextBoundary c.pos c.advanceChar.pos := by
  rw [h.pos_eq, h.advanceChar.pos_eq]
  exact Source.isNextBoundary_width h.toList_source

/-- From a boundary before the end, a character leads to the next boundary. -/
theorem Placed.isNextBoundary_advanceChar (h : c.Placed) :
    c.source.IsBoundary c.pos → c.pos < c.source.size →
      c.source.IsNextBoundary c.pos c.advanceChar.pos := by
  intro hboundary hlt
  rcases h.exists_between hboundary with ⟨passed, left, hbetween⟩
  cases left with
  | nil =>
      have hsize := hbetween.size_eq
      rw [Reading.width_nil] at hsize
      omega
  | cons x left => exact hbetween.isNextBoundary_advanceChar

/-- Inside a character, the cursor moves by one byte. -/
theorem Placed.pos_advanceChar_of_not_isBoundary (h : c.Placed) :
    ¬ c.source.IsBoundary c.pos → c.advanceChar.pos = c.pos + 1 := by
  intro hinside
  have hlt : c.pos < c.source.size := by
    rcases Nat.eq_or_lt_of_le h.pos_le with hend | hlt
    · exact absurd (hend ▸ Source.isBoundary_size) hinside
    · exact hlt
  rcases Option.isSome_iff_exists.1 (h.isSome_current_iff.2 hlt) with ⟨b, hb⟩
  have hbyte : c.source.byteAt? c.pos = some b := h.current_eq.symm.trans hb
  have hwidth := Byte.charWidth_of_not_first (Source.not_first_of_not_isBoundary hinside hbyte)
  rw [Cursor.advanceChar, hb]
  simp only [hwidth, h.pos_advanceBy]
  omega

/-- No boundary is passed over. -/
theorem Placed.pos_advanceChar_le (h : c.Placed) {i : Nat} :
    c.source.IsBoundary i → c.pos < i → c.advanceChar.pos ≤ i := by
  intro hi hlt
  by_cases hboundary : c.source.IsBoundary c.pos
  · rcases h.exists_between hboundary with ⟨passed, left, hbetween⟩
    cases left with
    | nil =>
        rw [hbetween.advanceChar_nil]
        exact Nat.le_of_lt hlt
    | cons x left => exact hbetween.isNextBoundary_advanceChar.le_of_lt i hi hlt
  · rw [h.pos_advanceChar_of_not_isBoundary hboundary]
    exact hlt

/-! ## Several characters -/

theorem walk_advanceChar_succ (n : Nat) (c : Cursor) :
    c.walk (List.replicate (n + 1) .advanceChar) =
      c.advanceChar.walk (List.replicate n .advanceChar) :=
  rfl

/-- From between two characters, each movement passes one more of them. -/
theorem Between.walk_advanceChar (h : c.Between passed left) (n : Nat) :
    (c.walk (List.replicate n .advanceChar)).Between (passed ++ left.take n) (left.drop n) := by
  induction n generalizing c passed left with
  | zero => simpa [walk] using h
  | succ n ih =>
      rw [walk_advanceChar_succ]
      cases left with
      | nil =>
          rw [h.advanceChar_nil]
          simpa using ih h
      | cons x left => simpa using ih h.advanceChar

/-- A boundary `n` bytes ahead is met, or an earlier one, within `n` movements. -/
theorem Placed.exists_walk_advanceChar (h : c.Placed) {n : Nat} :
    c.source.IsBoundary (c.pos + n) →
      ∃ k ≤ n, c.source.IsBoundary (c.walk (List.replicate k .advanceChar)).pos := by
  induction n generalizing c with
  | zero => exact fun hboundary => ⟨0, Nat.le_refl _, hboundary⟩
  | succ n ih =>
      intro hboundary
      by_cases hhere : c.source.IsBoundary c.pos
      · exact ⟨0, Nat.zero_le _, hhere⟩
      · -- One byte further on, the boundary is one byte nearer.
        have hnear : c.advanceChar.source.IsBoundary (c.advanceChar.pos + n) := by
          rw [source_advanceChar, h.pos_advanceChar_of_not_isBoundary hhere, Nat.add_assoc,
            Nat.add_comm 1 n]
          exact hboundary
        rcases ih h.advanceChar hnear with ⟨k, hk, hmet⟩
        refine ⟨k + 1, Nat.succ_le_succ hk, ?_⟩
        rwa [source_advanceChar] at hmet

/-- A run of a class that makes no difference between the bytes outside ASCII starts and ends on boundaries. -/
theorem Placed.isBoundary_eatWhile (h : c.Placed) {p : UInt8 → Bool} :
    (∀ a b, 0x80 ≤ a → 0x80 ≤ b → p a = p b) → c.source.IsBoundary c.pos →
      c.source.IsBoundary (c.eatWhile p).pos := by
  intro hp hboundary
  rcases h.exists_between hboundary with ⟨passed, left, hbetween⟩
  have hrun := (hbetween.eatWhile fun b hb => hp b 0x80 hb (by decide)).isBoundary
  rwa [source_eatWhile] at hrun

/-! ## Walks -/

/-- What moving by characters means for a cursor, on a boundary or inside a character. -/
structure KeepsToBoundaries (c : Cursor) : Prop where
  next : c.source.IsBoundary c.pos → c.pos < c.source.size →
    c.source.IsNextBoundary c.pos c.advanceChar.pos
  inside : ¬ c.source.IsBoundary c.pos → c.advanceChar.pos = c.pos + 1
  skips_none : ∀ i, c.source.IsBoundary i → c.pos < i → c.advanceChar.pos ≤ i
  returns : ¬ c.source.IsBoundary c.pos →
    ∃ k ≤ 3, c.source.IsBoundary (c.walk (List.replicate k .advanceChar)).pos
  run : ∀ p : UInt8 → Bool, (∀ a b, 0x80 ≤ a → 0x80 ≤ b → p a = p b) →
    c.source.IsBoundary c.pos → c.source.IsBoundary (c.eatWhile p).pos

theorem Placed.keepsToBoundaries (h : c.Placed) : c.KeepsToBoundaries where
  next := h.isNextBoundary_advanceChar
  inside := h.pos_advanceChar_of_not_isBoundary
  skips_none := fun _ => h.pos_advanceChar_le
  returns := by
    intro _
    rcases Source.exists_isBoundary_add h.pos_le with ⟨n, hn, hboundary⟩
    rcases h.exists_walk_advanceChar hboundary with ⟨k, hk, hmet⟩
    exact ⟨k, Nat.le_trans hk hn, hmet⟩
  run := fun _ => h.isBoundary_eatWhile

/-- From the start of a source, moving by characters passes one character after the other, and the text passed is
that of these characters. Wherever else a walk leads, also into a character, moving by characters goes to the next
boundary or returns to it byte by byte. -/
theorem advanceChar_walks_boundaries (source : Source) :
    (∀ n, ((ofSource source).walk (List.replicate n .advanceChar)).pos = width (source.toList.take n) ∧
        ((ofSource source).walk (List.replicate n .advanceChar)).sliceFrom 0 =
          .ok (String.ofList (source.toList.take n))) ∧
      ∀ moves, ((ofSource source).walk moves).source = source ∧
        ((ofSource source).walk moves).KeepsToBoundaries := by
  refine ⟨fun n => ?_, fun moves => ⟨?_, ?_⟩⟩
  · have hwalk := (Between.ofSource source).walk_advanceChar n
    have htext := hwalk.sliceFrom
    exact ⟨hwalk.pos_eq, htext⟩
  · rw [source_walk, source_ofSource]
  · exact ((placed_ofSource source).walk moves).keepsToBoundaries

/-- One byte into a character of three, and then two movements to its end. -/
theorem advanceChar_walks_boundaries_sample :
    ¬ Source.IsBoundary "€a" 1 ∧ ((ofSource "€a").walk [.advance]).advanceChar.pos = 2 ∧
      ∃ k ≤ 3, Source.IsBoundary "€a"
        (((ofSource "€a").walk [.advance]).walk (List.replicate k .advanceChar)).pos := by
  have hinside : ¬ Source.IsBoundary "€a" 1 := by decide +kernel
  have hkeeps := ((advanceChar_walks_boundaries "€a").2 [.advance]).2
  exact ⟨hinside, hkeeps.inside hinside, hkeeps.returns hinside⟩

end Cursor

end MonkeyTokens

import MonkeyTokens.Proofs.Encoding
import MonkeyTokens.Source.Placed

/-!
# Between — cursors that stand between two characters

A cursor moves by bytes. `Between` relates it to the characters of its source: those it has passed, and
those that are left. Main statements:

- `ofSource`: a new cursor stands before the first character;
- `advanceBy`, `advanceChar`, `eatWhile`: which movements stop between two characters again, and where;
- `current_cons`, `peek_of_ascii`: the bytes that the cursor sees are first bytes of characters;
- `sliceFrom`: the text between two such places is that of the characters between.
-/

namespace MonkeyTokens

open Reading (width)

namespace Cursor

/-! ## Runs of bytes -/

theorem eatWhile_of_not {c : Cursor} {p : UInt8 → Bool} (hp : c.current.any p = false) :
    c.eatWhile p = c := by
  rw [eatWhile, if_neg (by simp [hp])]

/-- After a run, no byte of its class is under the cursor. -/
theorem Placed.any_current_eatWhile {c : Cursor} (h : c.Placed) (p : UInt8 → Bool) :
    (c.eatWhile p).current.any p = false := by
  fun_induction Cursor.eatWhile p c with
  | case1 c hgo ih => exact ih h.advance
  | case2 c hstop =>
      cases hp : c.current.any p with
      | false => rfl
      | true =>
          -- The run would go on, since a byte under the cursor is before the end.
          exact absurd ⟨hp, h.next_le_of_any hp⟩ hstop

/-- A run goes on as it would from any byte inside it. -/
theorem Placed.eatWhile_advanceBy {c : Cursor} (h : c.Placed) {p : UInt8 → Bool} {n : Nat}
    (hp : ∀ i < n, (c.source.byteAt? (c.pos + i)).any p = true) :
    (c.advanceBy n).eatWhile p = c.eatWhile p := by
  induction n generalizing c with
  | zero => rfl
  | succ n ih =>
      have hcurrent : c.current.any p = true := by
        rw [h.current_eq]
        exact hp 0 (Nat.succ_pos n)
      calc
        (c.advanceBy (n + 1)).eatWhile p
            = (c.advance.advanceBy n).eatWhile p := rfl
        _ = c.advance.eatWhile p := by
              apply ih h.advance
              intro i hi
              rw [source_advance, h.pos_advance_of_any hcurrent, Nat.add_assoc, Nat.add_comm 1 i]
              exact hp (i + 1) (Nat.succ_lt_succ hi)
        _ = c.eatWhile p := (h.eatWhile_of_any hcurrent).symm

/-! ## Standing between characters -/

/-- The cursor has passed the characters `passed`, and the characters `left` are left. -/
structure Between (c : Cursor) (passed left : List Char) : Prop where
  placed : c.Placed
  toList_source : c.source.toList = passed ++ left
  pos_eq : c.pos = width passed

/-- A placed cursor on a boundary stands between two characters. -/
theorem Placed.exists_between {c : Cursor} (h : c.Placed) :
    c.source.IsBoundary c.pos → ∃ passed left, c.Between passed left := by
  intro hboundary
  rcases Source.isBoundary_iff.1 hboundary with ⟨passed, left, hchars, hpos⟩
  exact ⟨passed, left, h, hchars, hpos⟩

namespace Between

variable {c : Cursor} {passed mid left : List Char} {x : Char}

theorem ofSource (source : Source) : (Cursor.ofSource source).Between [] source.toList :=
  ⟨placed_ofSource source, by simp, by simp⟩

theorem isBoundary (h : c.Between passed left) : c.source.IsBoundary c.pos :=
  Source.isBoundary_iff.2 ⟨passed, left, h.toList_source, h.pos_eq⟩

theorem size_eq (h : c.Between passed left) : c.source.size = c.pos + width left := by
  rw [Source.size_eq_width, h.toList_source, Reading.width_append, h.pos_eq]

theorem byteAt?_pos_add (h : c.Between passed left) (i : Nat) :
    c.source.byteAt? (c.pos + i) = (left.flatMap String.utf8EncodeChar)[i]? := by
  rw [h.pos_eq]
  exact Source.byteAt?_width_add h.toList_source i

/-! ## What the cursor sees -/

theorem current_nil (h : c.Between passed []) : c.current = none := by
  rw [h.placed.current_eq]
  exact h.byteAt?_pos_add 0

theorem current_cons (h : c.Between passed (x :: left)) : c.current = some (Byte.first x) := by
  rcases Byte.exists_encode_eq_cons x with ⟨bs, hbs⟩
  have hbyte := h.byteAt?_pos_add 0
  rw [h.placed.current_eq]
  simpa [hbs] using hbyte

theorem peek_of_ascii (h : c.Between passed (x :: left)) (hx : x.toNat < 128) :
    c.peek = left.head?.map Byte.first := by
  have hbyte := h.byteAt?_pos_add 1
  rw [List.flatMap_cons, Byte.encode_of_ascii hx, List.singleton_append,
    List.getElem?_cons_succ] at hbyte
  rw [peek, h.placed.next_eq, hbyte]
  cases left with
  | nil => rfl
  | cons y left =>
      rcases Byte.exists_encode_eq_cons y with ⟨bs, hbs⟩
      simp [hbs]

/-! ## Movements from one place between characters to another -/

theorem advanceBy (h : c.Between passed (mid ++ left)) :
    (c.advanceBy (width mid)).Between (passed ++ mid) left := by
  refine ⟨h.placed.advanceBy _, by simp [h.toList_source], ?_⟩
  -- The source does not end before `mid` does, so no advance stops short.
  have hsize := h.size_eq
  rw [Reading.width_append] at hsize
  rw [h.placed.pos_advanceBy, Reading.width_append, ← h.pos_eq]
  omega

theorem advance_of_ascii (h : c.Between passed (x :: left)) (hx : x.toNat < 128) :
    c.advance.Between (passed ++ [x]) left := by
  have hstep := advanceBy (show c.Between passed ([x] ++ left) from h)
  rwa [Reading.width_cons, Byte.utf8Size_of_ascii hx] at hstep

theorem advanceChar (h : c.Between passed (x :: left)) :
    c.advanceChar.Between (passed ++ [x]) left := by
  have hstep := advanceBy (show c.Between passed ([x] ++ left) from h)
  unfold Cursor.advanceChar
  rw [h.current_cons]
  simp only [Byte.charWidth_first]
  exact hstep

/-- The bytes of one character are all in a run, or none of them is, when the class makes no difference
between the bytes outside ASCII. -/
theorem any_byteAt?_of_first {p : UInt8 → Bool} (hp : ∀ b, 0x80 ≤ b → p b = p 0x80)
    (h : c.Between passed (x :: left)) (hx : p (Byte.first x) = true) {i : Nat}
    (hi : i < x.utf8Size) : (c.source.byteAt? (c.pos + i)).any p = true := by
  have hlen : i < (String.utf8EncodeChar x).length := by
    rw [String.length_utf8EncodeChar]
    exact hi
  rw [h.byteAt?_pos_add, List.flatMap_cons, List.getElem?_append_left hlen,
    List.getElem?_eq_getElem hlen, Option.any_some]
  by_cases hascii : x.toNat < 128
  · -- The first byte is the only one.
    have hone := Byte.utf8Size_of_ascii hascii
    have hzero : i = 0 := by omega
    subst hzero
    simpa [Byte.encode_of_ascii hascii, ← Byte.first_of_ascii hascii] using hx
  · -- The class cannot tell the bytes apart, and the first one is in it.
    have hhigh := Nat.le_of_not_lt hascii
    rw [hp _ (Byte.high_of_mem_encode hhigh (List.getElem_mem hlen)),
      ← hp _ (Byte.high_first hhigh)]
    exact hx

/-- A run of bytes is a run of characters, when its class makes no difference between the bytes outside
ASCII. -/
theorem eatWhile {p : UInt8 → Bool} (hp : ∀ b, 0x80 ≤ b → p b = p 0x80)
    (h : c.Between passed left) :
    (c.eatWhile p).Between (passed ++ left.takeWhile fun x => p (Byte.first x))
      (left.dropWhile fun x => p (Byte.first x)) := by
  induction left generalizing c passed with
  | nil =>
      rw [eatWhile_of_not (by simp [h.current_nil])]
      simpa using h
  | cons x left ih =>
      cases hx : p (Byte.first x) with
      | false =>
          rw [eatWhile_of_not (by simp [h.current_cons, hx])]
          simpa [hx] using h
      | true =>
          -- The run goes on behind `x` as it would from `x` on.
          have hrun := h.placed.eatWhile_advanceBy fun i hi => any_byteAt?_of_first hp h hx hi
          have hrest := ih (advanceBy (show c.Between passed ([x] ++ left) from h))
          rw [Reading.width_cons, Reading.width_nil, Nat.add_zero, hrun] at hrest
          simpa [hx] using hrest

/-! ## Texts -/

/-- The source from the cursor on is the text of the characters that are left. -/
theorem slice?_pos_size (h : c.Between passed left) :
    c.source.slice? c.pos c.source.size = some (String.ofList left) := by
  have hchars : c.source.toList = passed ++ left ++ [] := by
    rw [List.append_nil]
    exact h.toList_source
  have hsize : c.source.size = width (passed ++ left) := by
    rw [Source.size_eq_width, h.toList_source]
  rw [h.pos_eq, hsize]
  exact Source.slice?_width hchars

theorem sliceFrom (h : c.Between (passed ++ mid) left) :
    c.sliceFrom (width passed) = .ok (String.ofList mid) := by
  have hle : width passed ≤ c.pos := by simp [h.pos_eq]
  rw [sliceFrom_of_le hle, h.pos_eq, Source.slice?_width h.toList_source, Option.getD_some]

end Between

end Cursor

end MonkeyTokens

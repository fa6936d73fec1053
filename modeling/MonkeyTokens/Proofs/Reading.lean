import MonkeyTokens.Proofs.Encoding
import MonkeyTokens.Proofs.Spelling

/-!
# Reading — laws of the description by characters

`Reading.tokens` says what the tokens of a list of characters are. This module names the token that a
character starts and the characters that remain after it, so that later modules need not unfold the
description. Main statements:

- `more_append_after`: a token takes a prefix of the characters;
- `tokens_of_blank`, `tokens_of_not_blank`: the first step of a reading;
- `tokens_skip`: blanks before a token only move its place;
- `isEof_firstToken`: no character starts the end mark.
-/

namespace MonkeyTokens

namespace Reading

/-! ## The first token -/

/-- The token that `x` starts before the characters `left`. -/
def firstToken (x : Char) (left : List Char) : Token :=
  ⟨kindOf x (String.ofList (x :: more x left)), String.ofList (x :: more x left)⟩

/-- The characters of `left` that remain after the token that `x` starts before them. -/
def after (x : Char) (left : List Char) : List Char :=
  left.drop (more x left).length

/-! ## How far a token reaches -/

theorem more_of_isWordStart {x : Char} (left : List Char) :
    Lexeme.isWordStart x = true → more x left = left.takeWhile Lexeme.isWord := by
  intro hx
  rw [more, if_pos hx]

theorem more_of_isDigit {x : Char} (left : List Char) :
    x.isDigit = true → more x left = left.takeWhile Char.isDigit := by
  intro hx
  rw [more, if_neg (by simp [Lexeme.isWordStart_of_isDigit hx]), if_pos hx]

/-- The characters of no run take at most the equals sign that follows them. -/
theorem more_of_not_run {x : Char} (left : List Char) :
    Lexeme.isWordStart x = false → x.isDigit = false →
      more x left = if x ∈ Lexeme.joiners ∧ left.head? = some '=' then ['='] else [] := by
  intro hword hdigit
  rw [more, if_neg (by simp [hword]), if_neg (by simp [hdigit])]
  cases left with
  | nil => simp
  | cons y left =>
      by_cases hy : y = '='
      · simp [hy]
      · simp [hy]

/-- After the first character of a token come characters of words, or an equals sign. -/
theorem mem_more {x y : Char} {left : List Char} :
    y ∈ more x left → Lexeme.isWord y = true ∨ y = '=' := by
  intro hy
  by_cases hword : Lexeme.isWordStart x = true
  · rw [more_of_isWordStart left hword] at hy
    exact .inl (List.all_eq_true.1 List.all_takeWhile y hy)
  · by_cases hdigit : x.isDigit = true
    · rw [more_of_isDigit left hdigit] at hy
      have hy' : y.isDigit = true := List.all_eq_true.1 List.all_takeWhile y hy
      exact .inl (by simp [Lexeme.isWord, hy'])
    · rw [more_of_not_run left (by simpa using hword) (by simpa using hdigit)] at hy
      split at hy
      · exact .inr (List.mem_singleton.1 hy)
      · cases hy

theorem more_isPrefix (x : Char) (left : List Char) : (more x left).IsPrefix left := by
  by_cases hword : Lexeme.isWordStart x = true
  · rw [more_of_isWordStart left hword]
    exact List.takeWhile_prefix _
  · by_cases hdigit : x.isDigit = true
    · rw [more_of_isDigit left hdigit]
      exact List.takeWhile_prefix _
    · rw [more_of_not_run left (by simpa using hword) (by simpa using hdigit)]
      -- The only character that such a token may take is an equals sign, which is then there.
      split
      case isTrue hjoined =>
          cases left with
          | nil => cases hjoined.2
          | cons y left =>
              rw [Option.some.inj hjoined.2]
              exact ⟨left, rfl⟩
      case isFalse => exact List.nil_prefix

theorem more_append_after (x : Char) (left : List Char) : more x left ++ after x left = left := by
  have htake := List.prefix_iff_eq_take.1 (more_isPrefix x left)
  calc
    more x left ++ after x left
        = left.take (more x left).length ++ left.drop (more x left).length := by
          rw [← htake, after]
    _ = left := List.take_append_drop _ _

theorem after_of_more_eq {x : Char} {cs tail : List Char} :
    more x (cs ++ tail) = cs → after x (cs ++ tail) = tail := by
  intro h
  have hall := more_append_after x (cs ++ tail)
  rw [h] at hall
  exact List.append_cancel_left hall

/-- A token that takes no more before `tail` leaves all of `tail`. -/
theorem after_append_of_more_eq {x : Char} {left tail : List Char} :
    more x (left ++ tail) = more x left → after x (left ++ tail) = after x left ++ tail := by
  intro h
  have hall := more_append_after x (left ++ tail)
  rw [h] at hall
  have hjoined : more x left ++ after x (left ++ tail) = more x left ++ (after x left ++ tail) := by
    calc
      more x left ++ after x (left ++ tail) = left ++ tail := hall
      _ = more x left ++ after x left ++ tail := by rw [more_append_after]
      _ = more x left ++ (after x left ++ tail) := List.append_assoc _ _ _
  exact List.append_cancel_left hjoined

theorem firstToken_of_more_eq {x : Char} {left right : List Char} :
    more x left = more x right → firstToken x left = firstToken x right := by
  intro h
  simp [firstToken, h]

theorem length_after_le (x : Char) (left : List Char) : (after x left).length ≤ left.length := by
  unfold after
  rw [List.length_drop]
  exact Nat.sub_le _ _

/-! ## The kind of a token -/

theorem kindOf_of_isWordStart {x : Char} (cs : List Char) :
    Lexeme.isWordStart x = true →
      kindOf x (String.ofList (x :: cs)) = (keyword? (String.ofList (x :: cs))).getD .ident := by
  intro hx
  rw [kindOf, if_pos hx, Lexeme.fixedKind?_of_isWordStart hx]

theorem kindOf_of_isDigit {x : Char} (text : String) : x.isDigit = true → kindOf x text = .int := by
  intro hx
  rw [kindOf, if_neg (by simp [Lexeme.isWordStart_of_isDigit hx]), if_pos hx]

theorem kindOf_of_not_run {x : Char} (text : String) :
    Lexeme.isWordStart x = false → x.isDigit = false →
      kindOf x text = (Lexeme.fixedKind? text).getD .illegal := by
  intro hword hdigit
  rw [kindOf, if_neg (by simp [hword]), if_neg (by simp [hdigit])]

/-- The end mark has no spelling, so no look-up finds it. -/
theorem kindOf_ne_eof (x : Char) (text : String) : kindOf x text ≠ .eof := by
  have hlexeme : Kind.lexeme? .eof = none := rfl
  unfold kindOf
  split
  · simp [Lexeme.getD_fixedKind?_eq_iff hlexeme]
  · split
    · decide
    · simp [Lexeme.getD_fixedKind?_eq_iff hlexeme]

/-- A token is illegal when it starts no run and its text spells nothing. -/
theorem kindOf_eq_illegal_iff {x : Char} {text : String} :
    kindOf x text = .illegal ↔
      Lexeme.isWordStart x = false ∧ x.isDigit = false ∧ Lexeme.fixedKind? text = none := by
  have hlexeme : Kind.lexeme? .illegal = none := rfl
  unfold kindOf
  split
  case isTrue hword => simp [Lexeme.getD_fixedKind?_eq_iff hlexeme, hword]
  case isFalse hword =>
      split
      case isTrue hdigit => simp [hdigit]
      case isFalse hdigit => simp [Lexeme.getD_fixedKind?_eq_iff hlexeme, hword, hdigit]

theorem isEof_firstToken (x : Char) (left : List Char) : (firstToken x left).isEof = false := by
  simpa [Token.isEof, firstToken] using kindOf_ne_eof x _

/-! ## One step of a reading -/

theorem tokens_nil (offset : Nat) : tokens offset [] = [.eof offset] := by
  rw [tokens]

theorem tokens_of_blank {x : Char} (offset : Nat) (left : List Char) :
    Lexeme.isBlank x = true → tokens offset (x :: left) = tokens (offset + x.utf8Size) left := by
  intro hx
  rw [tokens, if_pos hx]

theorem tokens_of_not_blank {x : Char} (offset : Nat) (left : List Char) :
    Lexeme.isBlank x = false →
      tokens offset (x :: left) =
        ⟨firstToken x left, ⟨offset, offset + width (x :: more x left)⟩⟩ ::
          tokens (offset + width (x :: more x left)) (after x left) := by
  intro hx
  rw [tokens, if_neg (by simp [hx])]
  rfl

theorem tokens_blanks_append {gap : List Char} (offset : Nat) (left : List Char) :
    gap.all Lexeme.isBlank = true → tokens offset (gap ++ left) = tokens (offset + width gap) left := by
  induction gap generalizing offset with
  | nil =>
      intro _
      rfl
  | cons x gap ih =>
      intro h
      rcases Bool.and_eq_true_iff.1 h with ⟨hx, hgap⟩
      rw [List.cons_append, tokens_of_blank offset _ hx, ih _ hgap, width_cons, Nat.add_assoc]

theorem isBlank_of_dropWhile_eq_cons {x : Char} {left rest : List Char} :
    left.dropWhile Lexeme.isBlank = x :: rest → Lexeme.isBlank x = false := by
  intro h
  have hne : left.dropWhile Lexeme.isBlank ≠ [] := by simp [h]
  have hhead := List.head_dropWhile_not Lexeme.isBlank hne
  simpa [h] using hhead

/-- Blanks before a token only move its place. -/
theorem tokens_skip (offset : Nat) (left : List Char) :
    tokens offset left =
      tokens (offset + width (left.takeWhile Lexeme.isBlank)) (left.dropWhile Lexeme.isBlank) := by
  induction left generalizing offset with
  | nil => rfl
  | cons x left ih =>
      cases hx : Lexeme.isBlank x with
      | false => simp [hx]
      | true =>
          rw [tokens_of_blank offset left hx, ih]
          simp [hx, Nat.add_assoc]

/-! ## A whole reading -/

/-- Induction on a reading: nothing is left, a blank comes next, or a token does. -/
theorem tokens_induction {motive : Nat → List Char → Prop}
    (nil : ∀ offset, motive offset [])
    (blank : ∀ offset x left, Lexeme.isBlank x = true →
      motive (offset + x.utf8Size) left → motive offset (x :: left))
    (token : ∀ offset x left, Lexeme.isBlank x = false →
      motive (offset + width (x :: more x left)) (after x left) → motive offset (x :: left))
    (offset : Nat) (left : List Char) : motive offset left := by
  fun_induction tokens offset left with
  | case1 offset => exact nil offset
  | case2 offset x left hx ih => exact blank offset x left hx ih
  | case3 offset x left hx text stop ih => exact token offset x left (by simpa using hx) ih

/-- There is an end mark at least. -/
theorem tokens_ne_nil (offset : Nat) (left : List Char) : tokens offset left ≠ [] := by
  induction offset, left using tokens_induction with
  | nil offset => simp [tokens_nil]
  | blank offset x left hx ih => simpa [tokens_of_blank _ _ hx] using ih
  | token offset x left hx ih => simp [tokens_of_not_blank _ _ hx]

/-- Further on in a source, characters are read in the same way. -/
theorem tokens_add (offset k : Nat) (left : List Char) :
    tokens (offset + k) left = (tokens offset left).map (·.shift k) := by
  induction offset, left using tokens_induction with
  | nil offset => simp [tokens_nil, Located.eof, Located.shift, Span.point]
  | blank offset x left hx ih =>
      rw [tokens_of_blank _ _ hx, tokens_of_blank _ _ hx, ← ih, Nat.add_right_comm]
  | token offset x left hx ih =>
      rw [tokens_of_not_blank _ _ hx, tokens_of_not_blank _ _ hx, List.map_cons, ← ih,
        Nat.add_right_comm]
      rfl

end Reading

end MonkeyTokens

import MonkeyTokens.Proofs.Gluing
import MonkeyTokens.Proofs.Partition

/-!
# Appending — what text written behind a source can change

A token is known once the character after it is known. So text that is appended to a source leaves all
tokens as they are, but for a last one that reaches the end of the source: that one may grow, if it is a
word, a number or a joiner. Main statements:

- `more_append_of_ne`: a token that stops before the end takes the same characters when more follow;
- `more_append_of_eq`: one that reaches the end takes no fewer;
- `exists_settles`: a reading is settled but for a token that reaches the end;
- `items_append_stable`: what holds for the tokens of a source when text is appended.
-/

namespace MonkeyTokens

open Reading

namespace Kind

/-- Characters that are appended may go on a token of the kind: it is a word, a number or a joiner. -/
def isOpen (k : Kind) : Bool :=
  k.isWordKind || k == int || k.isJoiner

end Kind

/-! ## The token before appended characters -/

namespace Reading

variable {x : Char} {left : List Char}

theorem takeWhile_append_of_ne {p : Char → Bool} (tail : List Char) :
    left.takeWhile p ≠ left → (left ++ tail).takeWhile p = left.takeWhile p := by
  intro hne
  have hlength : (left.takeWhile p).length ≠ left.length :=
    fun h => hne ((List.takeWhile_prefix p).eq_of_length h)
  rw [List.takeWhile_append, if_neg hlength]

theorem takeWhile_append_of_eq {p : Char → Bool} (tail : List Char) :
    left.takeWhile p = left → (left ++ tail).takeWhile p = left ++ tail.takeWhile p := by
  intro heq
  rw [List.takeWhile_append, if_pos (congrArg List.length heq)]

/-- Characters of no run look at the next character, and at no other. -/
theorem more_cons_append (y : Char) (tail : List Char) :
    Lexeme.isWordStart x = false → x.isDigit = false →
      more x (y :: left ++ tail) = more x (y :: left) := by
  intro hword hdigit
  rw [more_of_not_run _ hword hdigit, more_of_not_run _ hword hdigit]
  rfl

/-- A token takes a run of a class of characters, or it starts with a character of no run. -/
theorem more_cases (x : Char) :
    (∃ p : Char → Bool, ∀ left, more x left = left.takeWhile p) ∨
      (Lexeme.isWordStart x = false ∧ x.isDigit = false) := by
  cases hword : Lexeme.isWordStart x with
  | true => exact .inl ⟨_, fun left => more_of_isWordStart left hword⟩
  | false =>
      cases hdigit : x.isDigit with
      | true => exact .inl ⟨_, fun left => more_of_isDigit left hdigit⟩
      | false => exact .inr ⟨rfl, rfl⟩

/-- A token that stops before the end takes the same characters when more follow. -/
theorem more_append_of_ne (tail : List Char) :
    more x left ≠ left → more x (left ++ tail) = more x left := by
  intro hne
  rcases more_cases x with ⟨p, hrun⟩ | ⟨hword, hdigit⟩
  · rw [hrun] at hne ⊢
    rw [hrun, takeWhile_append_of_ne tail hne]
  · cases left with
    | nil => exact absurd (List.prefix_nil.1 (more_isPrefix x [])) hne
    | cons y left => exact more_cons_append y tail hword hdigit

/-- A token that reaches the end takes all the same characters when more follow. -/
theorem more_append_of_eq (tail : List Char) :
    more x left = left → left <+: more x (left ++ tail) := by
  intro heq
  rcases more_cases x with ⟨p, hrun⟩ | ⟨hword, hdigit⟩
  · rw [hrun] at heq ⊢
    rw [takeWhile_append_of_eq tail heq]
    exact List.prefix_append _ _
  · cases left with
    | nil => exact List.nil_prefix
    | cons y left =>
        have hmore : more x (y :: left ++ tail) = y :: left :=
          (more_cons_append y tail hword hdigit).trans heq
        exact ⟨[], by rw [hmore, List.append_nil]⟩

/-! ## Tokens that more characters may go on -/

theorem isOpen_of_isWordStart (left : List Char) :
    Lexeme.isWordStart x = true → (firstToken x left).kind.isOpen = true := by
  intro hword
  have hkind : (firstToken x left).kind.isWordKind = true := by
    rw [firstToken, kindOf_of_isWordStart _ hword]
    cases hkeyword : keyword? (String.ofList (x :: more x left)) with
    | none => rfl
    | some k => simp [Kind.isWordKind, (keyword?_eq_some_iff.1 hkeyword).1]
  simp [Kind.isOpen, hkind]

theorem isOpen_of_isDigit (left : List Char) :
    x.isDigit = true → (firstToken x left).kind.isOpen = true := by
  intro hdigit
  rw [firstToken, kindOf_of_isDigit _ hdigit]
  rfl

theorem isOpen_of_mem_joiners : x ∈ Lexeme.joiners → (firstToken x []).kind.isOpen = true := by
  intro hx
  simp only [Lexeme.joiners, List.mem_cons, List.not_mem_nil, or_false] at hx
  rcases hx with rfl | rfl | rfl | rfl <;> decide

/-- A token that reaches the end takes no more when more follows, unless it is of an open kind. -/
theorem more_append_of_not_isOpen (tail : List Char) :
    more x left = left → (firstToken x left).kind.isOpen = false → more x (left ++ tail) = left := by
  intro heq hclosed
  have hword : Lexeme.isWordStart x = false := by
    cases hword : Lexeme.isWordStart x with
    | false => rfl
    | true => exact absurd (isOpen_of_isWordStart left hword) (by simp [hclosed])
  have hdigit : x.isDigit = false := by
    cases hdigit : x.isDigit with
    | false => rfl
    | true => exact absurd (isOpen_of_isDigit left hdigit) (by simp [hclosed])
  cases left with
  | nil =>
      -- A joiner would be of an open kind.
      have hjoiner : x ∉ Lexeme.joiners := by
        intro hx
        exact absurd (isOpen_of_mem_joiners hx) (by simp [hclosed])
      simp [more_of_not_run _ hword hdigit, hjoiner]
  | cons y left =>
      calc
        more x (y :: left ++ tail) = more x (y :: left) := more_cons_append y tail hword hdigit
        _ = y :: left := heq

/-! ## What is settled of a reading -/

/-- The characters are one token that reaches their end, or none. -/
inductive Pending : List Char → Prop where
  | none : Pending []
  | token {x : Char} {left : List Char} (solid : Lexeme.isBlank x = false)
      (reaches : more x left = left) : Pending (x :: left)

/-- Whatever follows the characters `left`, their reading is that of the tokens `xs`, and then that of the
characters `rest` at the end of `left`. -/
structure Settles (offset : Nat) (left : List Char) (xs : List Located) (start : Nat)
    (rest : List Char) : Prop where
  tokens_append : ∀ tail, tokens offset (left ++ tail) = xs ++ tokens start (rest ++ tail)
  pending : Pending rest
  stop_eq : start + width rest = offset + width left

namespace Settles

variable {offset start : Nat} {rest : List Char} {xs : List Located}

theorem cons_blank (hx : Lexeme.isBlank x = true)
    (h : Settles (offset + x.utf8Size) left xs start rest) :
    Settles offset (x :: left) xs start rest where
  tokens_append := fun tail => by
    rw [List.cons_append, tokens_of_blank _ _ hx, h.tokens_append]
  pending := h.pending
  stop_eq := by rw [h.stop_eq, width_cons, Nat.add_assoc]

/-- A token that stops before the end is settled. -/
theorem cons_token (hx : Lexeme.isBlank x = false) (hne : more x left ≠ left)
    (h : Settles (offset + width (x :: more x left)) (after x left) xs start rest) :
    Settles offset (x :: left)
      (⟨firstToken x left, ⟨offset, offset + width (x :: more x left)⟩⟩ :: xs) start rest where
  tokens_append := fun tail => by
    have hmore := more_append_of_ne tail hne
    rw [List.cons_append, tokens_of_not_blank _ _ hx, firstToken_of_more_eq hmore,
      after_append_of_more_eq hmore, hmore, h.tokens_append, List.cons_append]
  pending := h.pending
  stop_eq := by
    rw [h.stop_eq, Nat.add_assoc, ← width_append, List.cons_append, more_append_after]

/-- A token that reaches the end is not. -/
theorem of_reaches (hx : Lexeme.isBlank x = false) (heq : more x left = left) :
    Settles offset (x :: left) [] offset (x :: left) :=
  ⟨fun _ => rfl, .token hx heq, rfl⟩

theorem dropLast_tokens (h : Settles offset left xs start rest) (tail : List Char) :
    (tokens offset (left ++ tail)).dropLast = xs ++ (tokens start (rest ++ tail)).dropLast := by
  rw [h.tokens_append, List.dropLast_append_of_ne_nil (tokens_ne_nil _ _)]

end Settles

/-- A reading is settled but for a token that reaches the end. -/
theorem exists_settles (offset : Nat) (left : List Char) :
    ∃ xs start rest, Settles offset left xs start rest := by
  induction offset, left using tokens_induction with
  | nil offset => exact ⟨[], offset, [], fun _ => rfl, .none, rfl⟩
  | blank offset x left hx ih =>
      rcases ih with ⟨xs, start, rest, h⟩
      exact ⟨xs, start, rest, h.cons_blank hx⟩
  | token offset x left hx ih =>
      by_cases heq : more x left = left
      · exact ⟨[], offset, x :: left, .of_reaches hx heq⟩
      · rcases ih with ⟨xs, start, rest, h⟩
        exact ⟨_, start, rest, h.cons_token hx heq⟩

end Reading

/-! ## The tokens of a source with more text -/

/-- The second token stands where the first one does, and is the first one, or one of an open kind with
more text. -/
structure Located.Grows (x y : Located) : Prop where
  start_eq : y.span.start = x.span.start
  text_prefix : x.token.text.toList <+: y.token.text.toList
  eq_of_closed : x.token.kind.isOpen = false → y = x

theorem Located.Grows.refl (x : Located) : Located.Grows x x :=
  ⟨rfl, List.prefix_rfl, fun _ => rfl⟩

namespace Reading

/-- A token that reaches the end grows at most when more follows. -/
theorem grows_firstToken (start : Nat) (tail : List Char) :
    more x left = left →
      Located.Grows ⟨firstToken x left, ⟨start, start + width (x :: more x left)⟩⟩
        ⟨firstToken x (left ++ tail), ⟨start, start + width (x :: more x (left ++ tail))⟩⟩ := by
  intro heq
  refine ⟨rfl, ?_, fun hclosed => ?_⟩
  · simpa [firstToken, heq] using more_append_of_eq tail heq
  · have hmore : more x (left ++ tail) = more x left := by
      rw [more_append_of_not_isOpen tail heq hclosed, heq]
    rw [firstToken_of_more_eq hmore, hmore]

theorem dropLast_tokens_cons (offset : Nat) :
    Lexeme.isBlank x = false →
      (tokens offset (x :: left)).dropLast =
        ⟨firstToken x left, ⟨offset, offset + width (x :: more x left)⟩⟩ ::
          (tokens (offset + width (x :: more x left)) (after x left)).dropLast := by
  intro hx
  rw [tokens_of_not_blank _ _ hx, List.dropLast_cons_of_ne_nil (tokens_ne_nil _ _)]

end Reading

theorem items_eq_dropLast (source : Source) : items source = (tokens 0 source.toList).dropLast := by
  rw [items, Scanner.stream_ofSource]

/-- With more text behind the source, all tokens stay, or all but a last one that reaches the end and grows
at most. -/
theorem items_append_cases (s t : Source) :
    items s <+: items (s ++ t) ∨
      ∃ xs x y, items s = xs ++ [x] ∧ xs ++ [y] <+: items (s ++ t) ∧
        x.span.stop = s.size ∧ x.Grows y := by
  rcases exists_settles 0 s.toList with ⟨xs, start, rest, h⟩
  have hs : items s = xs ++ (tokens start rest).dropLast := by
    have hall := h.dropLast_tokens []
    rwa [List.append_nil, List.append_nil, ← items_eq_dropLast] at hall
  have hst : items (s ++ t) = xs ++ (tokens start (rest ++ t.toList)).dropLast := by
    rw [items_eq_dropLast, String.toList_append, h.dropLast_tokens]
  have hstop := h.stop_eq
  rw [Nat.zero_add, ← Source.size_eq_width] at hstop
  cases h.pending with
  | none =>
      rw [tokens_nil, List.dropLast_singleton, List.append_nil] at hs
      rw [hs, hst]
      exact .inl (List.prefix_append _ _)
  | @token x left hx heq =>
      -- The last token reaches the end of `s`, and the token that starts there in `s ++ t` grows from it.
      have hafter : after x left = [] := by
        have hall := more_append_after x left
        rwa [heq, List.append_right_eq_self] at hall
      rw [dropLast_tokens_cons start hx, hafter, tokens_nil, List.dropLast_singleton] at hs
      rw [List.cons_append, dropLast_tokens_cons start hx] at hst
      refine .inr ⟨xs, _, _, hs, ?_, ?_, grows_firstToken start t.toList heq⟩
      · rw [hst, ← List.singleton_append (l := List.dropLast _), ← List.append_assoc]
        exact List.prefix_append _ _
      · rw [← hstop, heq]

theorem getElem?_of_prefix {xs ys : List Located} {i : Nat} {x : Located} :
    xs <+: ys → xs[i]? = some x → ys[i]? = some x := by
  intro hprefix hx
  rcases List.getElem?_eq_some_iff.1 hx with ⟨hi, rfl⟩
  exact List.prefix_iff_getElem?.1 hprefix i hi

/-- A token that stops before the end of the source is known for good. -/
theorem getElem?_items_append {s : Source} (t : Source) {i : Nat} {x : Located} :
    (items s)[i]? = some x → x.span.stop < s.size → (items (s ++ t))[i]? = some x := by
  intro hx hstop
  rcases items_append_cases s t with hprefix | ⟨xs, y, z, hs, hprefix, hend, _⟩
  · exact getElem?_of_prefix hprefix hx
  · -- It is not the last token, which stops at the end.
    rw [hs, List.getElem?_append] at hx
    split at hx
    case isTrue => exact getElem?_of_prefix ((List.prefix_append _ _).trans hprefix) hx
    case isFalse =>
        have hlast : x = y := List.mem_singleton.1 (List.mem_of_getElem? hx)
        rw [hlast, hend] at hstop
        exact absurd hstop (Nat.lt_irrefl _)

/-- When text is appended to a source, all tokens but the last one stay. The last one stays if it stops before
the end of the source; if it stops there, the token in its place starts where it does and goes on with its
text, and is the same token unless that is a word, a number or a joiner. So no token changes that was
followed by anything. -/
theorem items_append_stable (s t : Source) :
    (items s).dropLast <+: items (s ++ t) ∧
      (∀ x, (items s).getLast? = some x →
        (x.span.stop < s.size → items s <+: items (s ++ t)) ∧
          (x.span.stop = s.size →
            ∃ y, (items (s ++ t))[(items s).length - 1]? = some y ∧ x.Grows y)) ∧
      ∀ (i : Nat) (x : Located), (items s)[i]? = some x → x.span.stop < s.size →
        (items (s ++ t))[i]? = some x := by
  refine ⟨?_, fun x hlast => ?_, fun i x => getElem?_items_append t⟩
  · rcases items_append_cases s t with hprefix | ⟨xs, x, y, hs, hprefix, _⟩
    · exact (List.dropLast_prefix _).trans hprefix
    · rw [hs, List.dropLast_concat]
      exact (List.prefix_append _ _).trans hprefix
  · rcases items_append_cases s t with hprefix | ⟨xs, y, z, hs, hprefix, hend, hgrows⟩
    · rw [List.getLast?_eq_getElem?] at hlast
      exact ⟨fun _ => hprefix, fun _ => ⟨x, getElem?_of_prefix hprefix hlast, .refl x⟩⟩
    · obtain rfl : y = x := by simpa [hs] using hlast
      refine ⟨fun hstop => absurd hend (Nat.ne_of_lt hstop), fun _ => ⟨z, ?_, hgrows⟩⟩
      refine getElem?_of_prefix hprefix ?_
      simp [hs]

/-- A joiner at the end, after a word that is followed by a blank. -/
theorem items_append_stable_sample :
    items "ab <" = [⟨⟨.ident, "ab"⟩, ⟨0, 2⟩⟩, ⟨⟨.lt, "<"⟩, ⟨3, 4⟩⟩] ∧
      (items ("ab <" ++ "=c"))[0]? = some ⟨⟨.ident, "ab"⟩, ⟨0, 2⟩⟩ ∧
      ∃ y, (items ("ab <" ++ "=c"))[1]? = some y ∧ Located.Grows ⟨⟨.lt, "<"⟩, ⟨3, 4⟩⟩ y := by
  have hitems : items "ab <" = [⟨⟨.ident, "ab"⟩, ⟨0, 2⟩⟩, ⟨⟨.lt, "<"⟩, ⟨3, 4⟩⟩] := by
    rw [items_eq_dropLast]
    decide +kernel
  rcases items_append_stable "ab <" "=c" with ⟨_, hlast, hfixed⟩
  refine ⟨hitems, ?_, ?_⟩
  · exact hfixed 0 _ (by rw [hitems]; rfl) (by decide)
  · have hgrows := (hlast ⟨⟨.lt, "<"⟩, ⟨3, 4⟩⟩ (by rw [hitems]; rfl)).2 (by decide)
    simpa only [hitems, List.length_cons, List.length_nil] using hgrows

end MonkeyTokens

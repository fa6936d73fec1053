import MonkeyTokens.Proofs.Refinement

/-!
# Separators — characters that split a source into two readings

A separator belongs to no run and joins with nothing. For the token before it, a separator is as good as
the end of the source, and the token after it starts afresh. So a source with a separator in it is read
as its two halves are, the second one further on. Main statements:

- `isSeparator_iff`: the separators are the blanks, the symbols that join nothing, and the illegal
  characters;
- `more_append_separator`: no token reaches over a separator;
- `tokens_append_separator`: the reading of a list of characters with a separator in it;
- `tokenize_split`: the same for sources.
-/

namespace MonkeyTokens

open Reading

namespace Lexeme

/-! ## Separators -/

/-- The character belongs to no word and no number, and no equals sign is read together with it. -/
def isSeparator (c : Char) : Bool :=
  !(isWord c || joiners.contains c)

/-- The tokens of a separator: none if it is blank, else one, of the kind that it spells. -/
def ofSeparator (c : Char) : List Token :=
  if isBlank c then []
  else [⟨(fixedKind? (String.singleton c)).getD .illegal, String.singleton c⟩]

theorem classes_of_isSeparator {c : Char} :
    isSeparator c = true → isWord c = false ∧ c ∉ joiners := by
  intro h
  simpa [isSeparator] using h

/-- Separators are the blanks, the symbols that join nothing, and the illegal characters. -/
theorem isSeparator_iff {c : Char} :
    isSeparator c = true ↔
      isBlank c = true ∨ (c ∈ symbols ∧ c ∉ joiners) ∨ isIllegal c = true := by
  constructor
  · intro h
    rcases classes_of_isSeparator h with ⟨hword, hjoiner⟩
    by_cases hblank : isBlank c = true
    · exact .inl hblank
    · by_cases hsymbol : c ∈ symbols
      · exact .inr (.inl ⟨hsymbol, hjoiner⟩)
      · exact .inr (.inr (by simp [isIllegal, hblank, hword, hsymbol]))
  · have hapart : isWord c = false → c ∉ joiners → isSeparator c = true := by
      intro hword hjoiner
      simp [isSeparator, hword, hjoiner]
    rintro (hblank | ⟨hsymbol, hjoiner⟩ | hillegal)
    · refine hapart (classes_of_isBlank hblank).1 fun hjoiner => ?_
      have hsolid := (classes_of_mem_symbols (mem_symbols_of_mem_joiners hjoiner)).2.2.1
      exact absurd hblank (by simp [hsolid])
    · rcases classes_of_mem_symbols hsymbol with ⟨hword, hdigit, _⟩
      exact hapart (isWord_eq_false_iff.2 ⟨hword, hdigit⟩) hjoiner
    · rcases classes_of_isIllegal hillegal with ⟨_, hword, hsymbol⟩
      exact hapart hword fun hjoiner => hsymbol (mem_symbols_of_mem_joiners hjoiner)

end Lexeme

namespace Reading

variable {c x : Char} {p : Char → Bool}

/-! ## The token before a separator -/

/-- A run that does not take `c` ends before it. -/
theorem takeWhile_append_cons (left tail : List Char) :
    p c = false → (left ++ c :: tail).takeWhile p = left.takeWhile p := by
  intro hc
  rw [List.takeWhile_append]
  split
  case isTrue hall =>
      have hself := (List.takeWhile_prefix p).eq_of_length hall
      simp [hc, hself]
  case isFalse => rfl

/-- A token takes the same characters before a separator as at the end of the source. -/
theorem more_append_separator (x : Char) (left tail : List Char) :
    Lexeme.isSeparator c = true → more x (left ++ c :: tail) = more x left := by
  intro hc
  rcases Lexeme.classes_of_isSeparator hc with ⟨hword, hjoiner⟩
  -- One case for each path of `more`.
  by_cases hstart : Lexeme.isWordStart x = true
  · simp only [more_of_isWordStart _ hstart, takeWhile_append_cons left tail hword]
  · by_cases hdigit : x.isDigit = true
    · have hno := (Lexeme.isWord_eq_false_iff.1 hword).2
      simp only [more_of_isDigit _ hdigit, takeWhile_append_cons left tail hno]
    · have hequals : c ≠ '=' := fun he => hjoiner (he ▸ by decide)
      have hhead : (left ++ c :: tail).head? = some '=' ↔ left.head? = some '=' := by
        cases left with
        | nil => simp [hequals]
        | cons y left => simp
      have hstart' : Lexeme.isWordStart x = false := by simpa using hstart
      have hdigit' : x.isDigit = false := by simpa using hdigit
      simp only [more_of_not_run _ hstart' hdigit', hhead]

/-! ## The token of a separator -/

theorem more_of_isSeparator (tail : List Char) :
    Lexeme.isSeparator c = true → more c tail = [] := by
  intro hc
  rcases Lexeme.classes_of_isSeparator hc with ⟨hword, hjoiner⟩
  rcases Lexeme.isWord_eq_false_iff.1 hword with ⟨hstart, hdigit⟩
  simp [more_of_not_run _ hstart hdigit, hjoiner]

theorem ofSeparator_eq_firstToken (tail : List Char) :
    Lexeme.isSeparator c = true → Lexeme.isBlank c = false →
      Lexeme.ofSeparator c = [firstToken c tail] := by
  intro hc hblank
  rcases Lexeme.isWord_eq_false_iff.1 (Lexeme.classes_of_isSeparator hc).1 with ⟨hstart, hdigit⟩
  simp only [Lexeme.ofSeparator, hblank, firstToken, more_of_isSeparator tail hc,
    kindOf_of_not_run _ hstart hdigit, String.singleton_eq_ofList, Bool.false_eq_true, if_false]

theorem tokens_cons_separator (offset : Nat) (tail : List Char) :
    Lexeme.isSeparator c = true →
      tokens offset (c :: tail) =
        (Lexeme.ofSeparator c).map (⟨·, ⟨offset, offset + c.utf8Size⟩⟩) ++
          tokens (offset + c.utf8Size) tail := by
  intro hc
  cases hblank : Lexeme.isBlank c with
  | true => simp [tokens_of_blank _ _ hblank, Lexeme.ofSeparator, hblank]
  | false =>
      rw [tokens_of_not_blank _ _ hblank, ofSeparator_eq_firstToken tail hc hblank, after,
        more_of_isSeparator tail hc]
      rfl

/-! ## Both halves -/

/-- Characters with a separator in them are read as those before it and those behind it. -/
theorem tokens_append_separator (offset : Nat) (left tail : List Char) :
    Lexeme.isSeparator c = true →
      tokens offset (left ++ c :: tail) =
        (tokens offset left).dropLast ++
          (Lexeme.ofSeparator c).map
            (⟨·, ⟨offset + width left, offset + width left + c.utf8Size⟩⟩) ++
          tokens (offset + width left + c.utf8Size) tail := by
  intro hc
  induction offset, left using tokens_induction with
  | nil offset => simpa [tokens_nil] using tokens_cons_separator offset tail hc
  | blank offset x left hx ih =>
      rw [List.cons_append, tokens_of_blank _ _ hx, tokens_of_blank _ _ hx, ih]
      simp [Nat.add_assoc]
  | token offset x left hx ih =>
      -- The first token is the same, and the separator stands in what is after it.
      have hmore := more_append_separator x left tail hc
      have hwidth : offset + width (x :: more x left) + width (after x left) =
          offset + width (x :: left) := by
        rw [Nat.add_assoc, ← width_append, List.cons_append, more_append_after]
      rw [hwidth] at ih
      rw [List.cons_append, tokens_of_not_blank _ _ hx, tokens_of_not_blank _ _ hx,
        firstToken_of_more_eq hmore, after_append_of_more_eq hmore, hmore, ih,
        List.dropLast_cons_of_ne_nil (tokens_ne_nil _ _)]
      rfl

end Reading

/-! ## Sources -/

/-- A source with a separator in it is read as its two halves: the tokens of the first one keep their
places, and those of the second one move behind the separator. -/
theorem tokenize_split (a b : Source) {c : Char} :
    Lexeme.isSeparator c = true →
      tokenize (a ++ String.singleton c ++ b) =
          (tokenize a).dropLast ++ Lexeme.ofSeparator c ++ tokenize b ∧
        (Scanner.ofSource (a ++ String.singleton c ++ b)).stream =
          (Scanner.ofSource a).stream.dropLast ++
            (Lexeme.ofSeparator c).map (⟨·, ⟨a.size, a.size + c.utf8Size⟩⟩) ++
            (Scanner.ofSource b).stream.map (·.shift (a.size + c.utf8Size)) := by
  intro hc
  have hchars : (a ++ String.singleton c ++ b).toList = a.toList ++ c :: b.toList := by simp
  have hstream : (Scanner.ofSource (a ++ String.singleton c ++ b)).stream =
      (Scanner.ofSource a).stream.dropLast ++
        (Lexeme.ofSeparator c).map (⟨·, ⟨a.size, a.size + c.utf8Size⟩⟩) ++
        (Scanner.ofSource b).stream.map (·.shift (a.size + c.utf8Size)) := by
    simp only [Scanner.stream_ofSource, hchars, tokens_append_separator 0 _ _ hc,
      Source.size_eq_width, ← tokens_add, Nat.zero_add]
  refine ⟨?_, hstream⟩
  -- Without their spans, the tokens of the second half do not show that they have moved.
  simp only [tokenize_eq_map_stream, hstream, List.map_append, List.map_map, List.map_dropLast,
    Located.shift, Function.comp_def, List.map_id']

/-- A joiner and an equals sign with a character of three bytes between them. -/
theorem tokenize_split_sample :
    Lexeme.isSeparator '€' = true ∧
      tokenize "x<€=1" =
        [⟨.ident, "x"⟩, ⟨.lt, "<"⟩, ⟨.illegal, "€"⟩, ⟨.assign, "="⟩, ⟨.int, "1"⟩, .eof] := by
  have hc : Lexeme.isSeparator '€' = true := by decide
  have hsplit := (tokenize_split "x<" "=1" hc).1
  refine ⟨hc, ?_⟩
  calc
    tokenize "x<€=1"
        = (tokenize "x<").dropLast ++ Lexeme.ofSeparator '€' ++ tokenize "=1" := hsplit
    _ = [⟨.ident, "x"⟩, ⟨.lt, "<"⟩, ⟨.illegal, "€"⟩, ⟨.assign, "="⟩, ⟨.int, "1"⟩, .eof] := by
          simp only [tokenize_eq_map_reading]
          decide +kernel

end MonkeyTokens

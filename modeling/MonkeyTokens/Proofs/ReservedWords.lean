import MonkeyTokens.Proofs.Agreement
import MonkeyTokens.Proofs.Printing

/-!
# Reserved words — the look-up finds the spellings of the keywords, and nothing else

Reserved words are written down four times: in the look-up, which goes by the number of bytes first, in the table of
spellings, in the list of keywords, and as a range of codes. All four say the same of every text. A source that is
one word is therefore one token, and its kind is the keyword with that spelling where there is one. Main statements:

- `keyword?_eq_some_iff_mem`, `keyword?_eq_none_iff`: what the look-up finds, and when it finds nothing;
- `tokenize_text`: a proper token, written alone, is read back;
- `reserved_words_are_exact`: the look-up and the words of a source.
-/

namespace MonkeyTokens

open Reading

/-! ## The look-up -/

theorem keyword?_eq_some_iff_mem {text : String} {k : Kind} :
    keyword? text = some k ↔ k ∈ Kind.keywords ∧ k.lexeme? = some text := by
  rw [keyword?_eq_some_iff, Kind.mem_keywords_iff]

/-- A text that no keyword is spelled as is not found. -/
theorem keyword?_eq_none_iff {text : String} :
    keyword? text = none ↔ ∀ k : Kind, k.isKeyword = true → k.lexeme? ≠ some text := by
  rw [Option.eq_none_iff_forall_ne_some]
  apply forall_congr'
  intro k
  rw [ne_eq, keyword?_eq_some_iff, not_and]

/-! ## One word -/

/-- A proper token, written alone, is read back. -/
theorem tokenize_text {t : Token} : t.isProper = true → tokenize t.text = [t, .eof] := by
  intro ht
  have hchars : [] ++ [(⟨t, ""⟩ : Spaced)].flatMap Spaced.chars = t.text.toList := by
    simp [Spaced.chars]
  have hproper : ∀ x ∈ [(⟨t, ""⟩ : Spaced)], x.isProper = true := by
    simpa [Spaced.isProper] using ht
  -- Nothing follows the token that it could glue with.
  have hblanks : ([] : List Char).all Lexeme.isBlank = true := rfl
  have hread := (tokens_print_iff 0 hblanks hproper).2 (List.isChain_singleton _)
  rw [hchars] at hread
  rw [tokenize_eq_map_reading, reading, hread]
  rfl

/-- Whatever the text, the look-up finds a kind exactly when the kind is a keyword, by its code or by the list of
keywords, and is spelled as the text. A source that is one word is one token and the end mark, and the token is of
the keyword that is spelled so, or an identifier if there is none. -/
theorem reserved_words_are_exact :
    (∀ (text : String) (k : Kind),
        (keyword? text = some k ↔ k.isKeyword = true ∧ k.lexeme? = some text) ∧
          (keyword? text = some k ↔ k ∈ Kind.keywords ∧ k.lexeme? = some text)) ∧
      ∀ w : String, Lexeme.isWordText w.toList = true →
        ∃ kind, tokenize w = [⟨kind, w⟩, .eof] ∧
          ((kind.isKeyword = true ∧ kind.lexeme? = some w) ∨
            (kind = .ident ∧ ∀ k : Kind, k.isKeyword = true → k.lexeme? ≠ some w)) := by
  refine ⟨fun text k => ⟨keyword?_eq_some_iff, keyword?_eq_some_iff_mem⟩, fun w hw => ?_⟩
  have hread := tokenize_text (Token.isProper_of_isWordText hw)
  refine ⟨(keyword? w).getD .ident, hread, ?_⟩
  cases hfound : keyword? w with
  | some k =>
      have hkeyword : k.isKeyword = true ∧ k.lexeme? = some w := keyword?_eq_some_iff.1 hfound
      exact .inl hkeyword
  | none =>
      have hfree := keyword?_eq_none_iff.1 hfound
      exact .inr ⟨rfl, hfree⟩

/-- A reserved word, and a word of as many bytes that differs from it in the case of one letter. -/
theorem reserved_words_are_exact_sample :
    (∃ kind, tokenize "return" = [⟨kind, "return"⟩, .eof] ∧
        ((kind.isKeyword = true ∧ kind.lexeme? = some "return") ∨
          (kind = .ident ∧ ∀ k : Kind, k.isKeyword = true → k.lexeme? ≠ some "return"))) ∧
      ∃ kind, tokenize "returN" = [⟨kind, "returN"⟩, .eof] ∧
        ((kind.isKeyword = true ∧ kind.lexeme? = some "returN") ∨
          (kind = .ident ∧ ∀ k : Kind, k.isKeyword = true → k.lexeme? ≠ some "returN")) :=
  ⟨reserved_words_are_exact.2 "return" (by decide), reserved_words_are_exact.2 "returN" (by decide)⟩

end MonkeyTokens

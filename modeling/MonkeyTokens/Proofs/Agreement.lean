import MonkeyTokens.Proofs.Gluing
import MonkeyTokens.Proofs.Illegal

/-!
# Agreement — the kind of a token and its text

Any kind may stand beside any text, but among the tokens that are read the two agree: each token but the end
mark is proper, and a proper token can be told from its text alone. The spellings of the kinds, the table of
reserved words and the classes of characters all take part in this, so none of them can go its own way. Main
statements:

- `isProper_of_isWordText`: a word is the text of a reserved word or of an identifier;
- `isProper_firstToken`: a character that is no blank starts a proper token;
- `eq_of_text_eq`: proper tokens with equal texts are equal;
- `text_determines_token`: tokens agree with their texts, in one source and across sources.
-/

namespace MonkeyTokens

open Reading

/-! ## Proper tokens -/

/-- A word has a fixed spelling only where it is reserved. -/
theorem Lexeme.fixedKind?_of_isWordText {text : String} :
    isWordText text.toList = true → fixedKind? text = keyword? text := by
  intro h
  cases hcs : text.toList with
  | nil => rw [hcs] at h; cases h
  | cons x cs =>
      rw [hcs] at h
      rw [← String.ofList_toList (s := text), hcs]
      exact fixedKind?_of_isWordStart (Bool.and_eq_true_iff.1 h).1

namespace Token

variable {t u : Token}

/-- A proper token of a kind with one spelling is spelled so. -/
theorem text_of_lexeme? {text : String} :
    t.isProper = true → t.kind.lexeme? = some text → t.text = text := by
  intro h hlexeme
  cases isProper_iff.1 h with
  | ident kind _ _ => simp [kind, Kind.lexeme?] at hlexeme
  | int kind _ => simp [kind, Kind.lexeme?] at hlexeme
  | illegal kind _ _ => simp [kind, Kind.lexeme?] at hlexeme
  | fixed spelled => exact Option.some.inj (spelled.symm.trans hlexeme)

theorem lexeme?_of_isKeyword :
    t.isProper = true → t.kind.isKeyword = true → t.kind.lexeme? = some t.text := by
  intro h hkeyword
  have hsome : t.kind.lexeme?.isSome = true := by
    revert hkeyword
    cases t.kind <;> decide
  rcases Option.isSome_iff_exists.1 hsome with ⟨text, hlexeme⟩
  rw [text_of_lexeme? h hlexeme, hlexeme]

/-- A word is the text of a reserved word, or of an identifier. -/
theorem isProper_of_isWordText {w : String} :
    Lexeme.isWordText w.toList = true → (⟨(keyword? w).getD .ident, w⟩ : Token).isProper = true := by
  intro hw
  apply isProper_iff.2
  cases hfound : keyword? w with
  | some k =>
      have hspelled : k.lexeme? = some w := (keyword?_eq_some_iff.1 hfound).2
      exact .fixed hspelled
  | none =>
      have hfree : Lexeme.fixedKind? w = none := (Lexeme.fixedKind?_of_isWordText hw).trans hfound
      exact .ident rfl hw hfree

theorem kind_ne_eof : t.isProper = true → t.kind ≠ .eof := by
  intro h hk
  simp [isProper, hk, Kind.lexeme?] at h

/-- The text of a proper token shows its kind, so it shows the token. -/
theorem eq_of_text_eq : t.isProper = true → u.isProper = true → t.text = u.text → t = u := by
  intro ht hu htexts
  rcases exists_form ht with ⟨x, cs, htext, _⟩
  have hkinds : t.kind = u.kind := by
    calc
      t.kind = kindOf x t.text := (kindOf_text ht htext).symm
      _ = kindOf x u.text := by rw [htexts]
      _ = u.kind := kindOf_text hu (htexts.symm.trans htext)
  cases t
  cases u
  simp_all

end Token

/-! ## Tokens that are read -/

namespace Reading

variable {x : Char}

theorem isProper_of_isWordStart (left : List Char) :
    Lexeme.isWordStart x = true → (firstToken x left).isProper = true := by
  intro hword
  have hchars : (String.ofList (x :: more x left)).toList = x :: left.takeWhile Lexeme.isWord := by
    rw [String.toList_ofList, more_of_isWordStart left hword]
  rw [firstToken, kindOf_of_isWordStart _ hword]
  apply Token.isProper_of_isWordText
  rw [hchars, Lexeme.isWordText, hword, Bool.true_and]
  exact List.all_takeWhile

theorem isProper_of_isDigit (left : List Char) :
    x.isDigit = true → (firstToken x left).isProper = true := by
  intro hdigit
  have hkind : (firstToken x left).kind = .int := kindOf_of_isDigit _ hdigit
  have htext : (firstToken x left).text.toList = x :: left.takeWhile Char.isDigit := by
    rw [firstToken, String.toList_ofList, more_of_isDigit left hdigit]
  refine Token.isProper_iff.2 (.int hkind ?_)
  simp [htext, Lexeme.isNumberText, hdigit, List.all_takeWhile]

theorem isProper_of_isIllegal (left : List Char) :
    Lexeme.isIllegal x = true → (firstToken x left).isProper = true := by
  intro hillegal
  rw [firstToken_of_isIllegal left hillegal]
  exact Token.isProper_iff.2 (.illegal rfl String.toList_ofList hillegal)

/-- A character that is no blank starts a proper token. -/
theorem isProper_firstToken (left : List Char) :
    Lexeme.isBlank x = false → (firstToken x left).isProper = true := by
  intro hblank
  cases hword : Lexeme.isWordStart x with
  | true => exact isProper_of_isWordStart left hword
  | false =>
      cases hdigit : x.isDigit with
      | true => exact isProper_of_isDigit left hdigit
      | false =>
          cases hillegal : Lexeme.isIllegal x with
          | true => exact isProper_of_isIllegal left hillegal
          | false =>
              -- What is left are symbols, and those are looked up with success.
              have hkind := kind_firstToken_ne_illegal left hblank hillegal
              cases hfixed : Lexeme.fixedKind? (firstToken x left).text with
              | none => exact absurd (kindOf_eq_illegal_iff.2 ⟨hword, hdigit, hfixed⟩) hkind
              | some k =>
                  have hk : (firstToken x left).kind = k := by
                    rw [firstToken, kindOf_of_not_run _ hword hdigit]
                    exact congrArg (Option.getD · .illegal) hfixed
                  refine Token.isProper_iff.2 (.fixed ?_)
                  rw [hk]
                  exact Lexeme.fixedKind?_eq_some_iff.1 hfixed

theorem isProper_or_eq_eof_of_mem {y : Located} (offset : Nat) (left : List Char) :
    y ∈ tokens offset left → y.token.isProper = true ∨ y.token = .eof := by
  induction offset, left using tokens_induction with
  | nil offset =>
      intro hy
      rw [tokens_nil, List.mem_singleton] at hy
      exact .inr (by rw [hy]; rfl)
  | blank offset x left hx ih =>
      rw [tokens_of_blank _ _ hx]
      exact ih
  | token offset x left hx ih =>
      rw [tokens_of_not_blank _ _ hx]
      intro hy
      rcases List.mem_cons.1 hy with rfl | hy
      · exact .inl (isProper_firstToken left hx)
      · exact ih hy

end Reading

/-! ## Sources -/

section Sources

variable {source : Source} {t u : Token}

theorem isProper_or_eq_eof_of_mem_tokenize :
    t ∈ tokenize source → t.isProper = true ∨ t = .eof := by
  intro ht
  rw [tokenize_eq_map_reading] at ht
  rcases List.mem_map.1 ht with ⟨y, hy, rfl⟩
  exact isProper_or_eq_eof_of_mem 0 source.toList hy

/-- A token with an illegal character is illegal. -/
theorem kind_of_mem_text {c : Char} :
    t ∈ tokenize source → Lexeme.isIllegal c = true → c ∈ t.text.toList → t.kind = .illegal := by
  intro ht hc hmem
  rw [tokenize_eq_map_reading] at ht
  rcases List.mem_map.1 ht with ⟨y, hy, rfl⟩
  cases hy' : y.isIllegal with
  | true => exact beq_iff_eq.1 hy'
  | false =>
      have hlegal := legal_of_mem_tokens 0 source.toList hy hy' c hmem
      rw [hc] at hlegal
      cases hlegal

/-- The kind of the token and its text agree. Of an illegal token, the text is one character that no token of
another kind starts with, in any source. -/
structure Token.Agrees (t : Token) : Prop where
  fixed : ∀ text, t.kind.lexeme? = some text → t.text = text
  ident : t.kind = .ident → Lexeme.isWordText t.text.toList = true ∧ keyword? t.text = none
  int : t.kind = .int → Lexeme.isNumberText t.text.toList = true
  illegal : t.kind = .illegal → ∃ c, t.text = String.singleton c ∧ Lexeme.isIllegal c = true ∧
    Lexeme.isBlank c = false ∧
      ∀ other : Source, ∀ u ∈ tokenize other, u.text.toList.head? = some c → u.kind = .illegal
  eof : t.isEof = true ↔ t.text = ""

theorem Token.agrees_eof : Token.eof.Agrees where
  fixed := by simp [Token.eof, Kind.lexeme?]
  ident := by simp [Token.eof]
  int := by simp [Token.eof]
  illegal := by simp [Token.eof]
  eof := by simp [Token.eof, Token.isEof]

theorem Token.agrees_of_isProper (h : t.isProper = true) : t.Agrees where
  fixed := fun _ => text_of_lexeme? h
  ident := by
    intro hk
    have hident : Lexeme.isWordText t.text.toList = true ∧ Lexeme.fixedKind? t.text = none := by
      simpa [isProper, hk] using h
    exact ⟨hident.1, (Lexeme.fixedKind?_of_isWordText hident.1).symm.trans hident.2⟩
  int := by
    intro hk
    simpa [isProper, hk] using h
  illegal := by
    intro hk
    have hillegal : Lexeme.isIllegalText t.text.toList = true := by simpa [isProper, hk] using h
    rcases Lexeme.isIllegalText_iff.1 hillegal with ⟨c, htext, hc⟩
    refine ⟨c, ?_, hc, (Lexeme.classes_of_isIllegal hc).1, fun other u hu hhead => ?_⟩
    · rw [String.singleton_eq_ofList, ← htext, String.ofList_toList]
    · exact kind_of_mem_text hu hc (List.mem_of_head? hhead)
  eof := by
    have htext : t.text ≠ "" := fun hempty => text_ne_nil h (by rw [hempty]; rfl)
    simp [isEof, kind_ne_eof h, htext]

/-- The tokens of a source agree with their texts, and the text of a token determines it: where any source has
the same text as a token, it has the same token. -/
theorem text_determines_token (source : Source) :
    (∀ t ∈ tokenize source, t.Agrees) ∧
      ∀ other : Source, ∀ t ∈ tokenize source, ∀ u ∈ tokenize other, t.text = u.text → t = u := by
  refine ⟨fun t ht => ?_, fun other t ht u hu htexts => ?_⟩
  · rcases isProper_or_eq_eof_of_mem_tokenize ht with hproper | rfl
    · exact Token.agrees_of_isProper hproper
    · exact Token.agrees_eof
  · rcases isProper_or_eq_eof_of_mem_tokenize ht with ht' | rfl <;>
      rcases isProper_or_eq_eof_of_mem_tokenize hu with hu' | rfl
    · exact Token.eq_of_text_eq ht' hu' htexts
    · exact absurd (by rw [htexts]; rfl) (Token.text_ne_nil ht')
    · exact absurd (by rw [← htexts]; rfl) (Token.text_ne_nil hu')
    · rfl

/-- An operator that is spelled alike in two sources, with and without blanks about it. -/
theorem text_determines_token_sample :
    (⟨.ltEq, "<="⟩ : Token).Agrees ∧
      ∀ u ∈ tokenize "if (b <= c)", u.text = "<=" → u = ⟨.ltEq, "<="⟩ := by
  have hmem : (⟨.ltEq, "<="⟩ : Token) ∈ tokenize "a<=1" := by decide +kernel
  rcases text_determines_token "a<=1" with ⟨hagrees, htoken⟩
  exact ⟨hagrees _ hmem, fun u hu htext => (htoken _ _ hmem u hu htext.symm).symm⟩

end Sources

end MonkeyTokens

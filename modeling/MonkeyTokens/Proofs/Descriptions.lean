import MonkeyTokens.Proofs.Agreement
import MonkeyTokens.Proofs.Merging
import MonkeyTokens.Proofs.Progress

/-!
# Descriptions — what a message says of a token that was read

The description of a token is a text for a person. Where a kind has one spelling, the description comes from the
kind alone and leaves the text of the token out; elsewhere it holds the text, raw, whatever marks the text has. For
tokens that are read, both come to the same: the text stands between backticks, after a few words in three kinds.
Main statements:

- `describe_of_isProper`: a proper token is described by its text;
- `preamble_append_inj`: the words before the text can be told from the text;
- `describe_inj`: descriptions of two tokens are equal only where the tokens are;
- `describe_quotes_source`: both for tokens that scanners read, wherever calls have left them.
-/

namespace MonkeyTokens

/-! ## Words before the text -/

namespace Kind

variable {k l : Kind}

/-- What a description says before the text. -/
def preamble : Kind → String
  | ident => "identifier "
  | int => "integer literal "
  | illegal => "illegal character "
  | _ => ""

theorem preamble_mem (k : Kind) :
    k.preamble ∈ ["identifier ", "integer literal ", "illegal character ", ""] := by
  cases k <;> decide

/-- The words end where the first backtick stands, since no two of them start alike. -/
theorem preamble_append_inj {a b : String} :
    k.preamble ++ "`" ++ a = l.preamble ++ "`" ++ b → k.preamble = l.preamble ∧ a = b := by
  intro h
  have hwords : k.preamble = l.preamble := by
    have hk := preamble_mem k
    have hl := preamble_mem l
    simp only [List.mem_cons, List.not_mem_nil, or_false] at hk hl
    have hchars := congrArg String.toList h
    simp only [String.toList_append] at hchars
    rcases hk with hk | hk | hk | hk <;> rcases hl with hl | hl | hl | hl <;>
      simp [hk, hl] at hchars ⊢
  rw [hwords, String.append_right_inj] at h
  exact ⟨hwords, h⟩

/-- The end mark is called by no words that come before a text. -/
theorem name_eof_ne_preamble_append (k : Kind) (a : String) :
    eof.name ≠ k.preamble ++ "`" ++ a := by
  intro h
  have hk := preamble_mem k
  simp only [List.mem_cons, List.not_mem_nil, or_false] at hk
  have hchars := congrArg String.toList h
  simp only [String.toList_append] at hchars
  rcases hk with hk | hk | hk | hk <;> simp [hk, name] at hchars

/-- A kind with one spelling is called by it. -/
theorem name_of_lexeme? {text : String} : k.lexeme? = some text → k.name = "`" ++ text ++ "`" := by
  intro h
  cases k <;> cases h <;> rfl

end Kind

/-! ## Proper tokens -/

namespace Token

variable {t u : Token}

theorem describe_of_lexeme? {text : String} :
    t.kind.lexeme? = some text → t.describe = t.kind.name := by
  intro h
  unfold describe
  split
  case h_1 hk => simp [hk, Kind.lexeme?] at h
  case h_2 hk => simp [hk, Kind.lexeme?] at h
  case h_3 hk => simp [hk, Kind.lexeme?] at h
  case h_4 => rfl

theorem preamble_of_lexeme? {text : String} : t.kind.lexeme? = some text → t.kind.preamble = "" := by
  intro h
  cases hk : t.kind <;> simp [hk, Kind.lexeme?] at h <;> rfl

/-- A proper token is described by its text between backticks, after the words of its kind. -/
theorem describe_of_isProper :
    t.isProper = true → t.describe = t.kind.preamble ++ "`" ++ t.text ++ "`" := by
  intro h
  cases isProper_iff.1 h with
  | ident kind _ _ => simp [describe, kind, Kind.name, Kind.preamble]
  | int kind _ => simp [describe, kind, Kind.name, Kind.preamble]
  | illegal kind _ _ => simp [describe, kind, Kind.name, Kind.preamble]
  | fixed spelled =>
      rw [describe_of_lexeme? spelled, preamble_of_lexeme? spelled, Kind.name_of_lexeme? spelled,
        String.empty_append]

/-- Two proper tokens or end marks are described alike only if they are equal. -/
theorem describe_inj (ht : t.isProper = true ∨ t = .eof) (hu : u.isProper = true ∨ u = .eof) :
    t.describe = u.describe ↔ t = u := by
  refine ⟨fun h => ?_, congrArg describe⟩
  rcases ht with ht | rfl <;> rcases hu with hu | rfl
  · rw [describe_of_isProper ht, describe_of_isProper hu, String.append_left_inj] at h
    -- The words before the text agree, so the texts do, and these determine the tokens.
    exact eq_of_text_eq ht hu (Kind.preamble_append_inj h).2
  · rw [describe_of_isProper ht, String.append_assoc] at h
    exact absurd h.symm (Kind.name_eof_ne_preamble_append _ _)
  · rw [describe_of_isProper hu, String.append_assoc] at h
    exact absurd h (Kind.name_eof_ne_preamble_append _ _)
  · rfl

end Token

/-! ## Tokens that are read -/

namespace Scanner

variable {source : Source} {x : Located}

/-- Some calls leave a scanner of the source where it reads the token next, at its place. -/
def Reads (source : Source) (x : Located) : Prop :=
  ∃ calls, ((afterCalls source calls).perform .located).result.1 = .located x.token x.span

/-- Whatever calls come before, what is read belongs to the stream of the source. -/
theorem Reads.mem_stream (h : Reads source x) : x ∈ (ofSource source).stream := by
  rcases h with ⟨calls, hanswer⟩
  have hstep : (afterCalls source calls).step.toLocated = x := by
    cases x
    obtain ⟨rfl, rfl⟩ := Answer.located.inj hanswer
    rfl
  -- The step reads the item that the calls before it have not reached.
  rw [← hstep, (Stands.afterCalls source calls).toLocated_step, (stream_eq_items source).1,
    Progress.item]
  cases hitem : (items source)[(Progress.performAll source calls .start).2.index]? with
  | some y => exact List.mem_append_left _ (List.mem_of_getElem? hitem)
  | none => exact List.mem_append_right _ List.mem_cons_self

theorem Reads.isProper_or_eq_eof (h : Reads source x) :
    x.token.isProper = true ∨ x.token = .eof := by
  have hmem : x.token ∈ tokenize source := by
    rw [tokenize_eq_map_stream]
    exact List.mem_map_of_mem h.mem_stream
  exact isProper_or_eq_eof_of_mem_tokenize hmem

/-- A token that is read, other than the end mark, is described by the text of the source at its place, after the
words of its kind and between backticks. Tokens that are read, in one source or in two, and end marks, are
described alike exactly when they are equal. -/
theorem describe_quotes_source :
    (∀ source x, Reads source x → x.token.isEof = false →
        ∃ text, x.span.textIn? source = some text ∧
          x.token.describe = x.token.kind.preamble ++ "`" ++ text ++ "`") ∧
      ∀ source other x y, Reads source x → Reads other y →
        (x.token.describe = y.token.describe ↔ x.token = y.token) := by
  refine ⟨fun source x hx heof => ?_, fun source other x y hx hy => ?_⟩
  · rcases hx.isProper_or_eq_eof with hproper | htoken
    · exact ⟨x.token.text, (laid_stream source).text_eq x hx.mem_stream,
        Token.describe_of_isProper hproper⟩
    · rw [htoken] at heof
      cases heof
  · exact Token.describe_inj hx.isProper_or_eq_eof hy.isProper_or_eq_eof

/-- A backtick in a source is illegal, and its description has three of them. -/
theorem describe_quotes_source_sample :
    Reads "x `" ⟨⟨.illegal, "`"⟩, ⟨2, 3⟩⟩ ∧
      (∃ text, Span.textIn? ⟨2, 3⟩ "x `" = some text ∧
        "illegal character ```" = Kind.illegal.preamble ++ "`" ++ text ++ "`") ∧
      ((⟨.illegal, "`"⟩ : Token).describe = (⟨.illegal, "'"⟩ : Token).describe ↔
        (⟨.illegal, "`"⟩ : Token) = ⟨.illegal, "'"⟩) := by
  have hread : Reads "x `" ⟨⟨.illegal, "`"⟩, ⟨2, 3⟩⟩ := ⟨[.token], by decide +kernel⟩
  have hother : Reads "'" ⟨⟨.illegal, "'"⟩, ⟨0, 1⟩⟩ := ⟨[], by decide +kernel⟩
  rcases describe_quotes_source with ⟨hquotes, hinj⟩
  exact ⟨hread, hquotes _ _ hread rfl, hinj _ _ _ _ hread hother⟩

end Scanner

end MonkeyTokens

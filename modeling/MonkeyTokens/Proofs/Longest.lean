import MonkeyTokens.Proofs.Agreement
import MonkeyTokens.Proofs.Progress

/-!
# Longest match — a token is the longest lexeme at its place

Several lexemes may start at one place: a symbol and an operator that goes on behind it, a word and each of
its beginnings. `Lexeme.Longest` says of a text that it is one of them and that none is longer, without saying
how it is found. Main statements:

- `isPrefix_more`: whatever lexeme starts at a character, the first token takes all of it;
- `longest_firstToken`: the first token is the longest lexeme;
- `Longest.lexeme?_eq_takeWhile`, `Longest.second_ne_equals`: what this means for reserved words and for joiners;
- `token_is_longest_lexeme`: the same of scanners, wherever calls have left them.
-/

namespace MonkeyTokens

open Reading

namespace Lexeme

variable {x : Char} {text cs : List Char}

/-! ## Lexemes at one place -/

/-- The characters `cs` start with `text`, which is a lexeme, and with no longer lexeme. -/
structure Longest (text cs : List Char) : Prop where
  lexeme : isLexeme text = true
  isPrefix : text <+: cs
  length_le : ∀ other, isLexeme other = true → other <+: cs → other.length ≤ text.length

theorem isLexeme_of_isWordText : isWordText text = true → isLexeme text = true := by
  intro h
  simp [isLexeme, h]

theorem isLexeme_of_isSome : (fixedKind? (String.ofList text)).isSome = true → isLexeme text = true := by
  intro h
  simp [isLexeme, h]

/-- After its first character, a lexeme is a part of a word or of a number, or nothing, or an equals sign that
completes an operator. -/
theorem isLexeme_cons_cases : isLexeme (x :: cs) = true →
    (isWordStart x = true ∧ cs.all isWord = true) ∨ (x.isDigit = true ∧ cs.all Char.isDigit = true) ∨
      cs = [] ∨ (x ∈ joiners ∧ cs = ['=']) := by
  intro h
  simp only [isLexeme, Bool.or_eq_true] at h
  rcases h with ((hfixed | hword) | hnumber) | hillegal
  · rcases Option.isSome_iff_exists.1 hfixed with ⟨k, hk⟩
    rcases Kind.spelling (fixedKind?_eq_some_iff.1 hk) with ⟨_, hx, _, hcs⟩ | ⟨_, _, hcs⟩ | ⟨_, hx, hcs⟩
    · exact .inl ⟨hx, hcs⟩
    · exact .inr (.inr (.inl hcs))
    · exact .inr (.inr (.inr ⟨hx, hcs⟩))
  · exact .inl (Bool.and_eq_true_iff.1 hword)
  · exact .inr (.inl (by simpa [isNumberText] using hnumber))
  · cases cs with
    | nil => exact .inr (.inr (.inl rfl))
    | cons y cs => cases hillegal

end Lexeme

/-- The text of a proper token is a lexeme. -/
theorem Token.isLexeme_text {t : Token} :
    t.isProper = true → Lexeme.isLexeme t.text.toList = true := by
  intro h
  cases isProper_iff.1 h with
  | ident _ word _ => exact Lexeme.isLexeme_of_isWordText word
  | int _ number => simp [Lexeme.isLexeme, number]
  | illegal _ text illegal => simp [Lexeme.isLexeme, text, Lexeme.isIllegalText, illegal]
  | fixed spelled =>
      apply Lexeme.isLexeme_of_isSome
      rw [String.ofList_toList, Lexeme.fixedKind?_of_lexeme? spelled]
      rfl

/-! ## The first token -/

namespace Reading

variable {x : Char} {cs left : List Char}

/-- Characters of a class are a beginning of the run of that class. -/
theorem isPrefix_takeWhile {p : Char → Bool} :
    cs.all p = true → cs <+: left → cs <+: left.takeWhile p := by
  rintro hall ⟨rest, rfl⟩
  rw [List.takeWhile_append_of_pos (by simpa using hall)]
  exact List.prefix_append _ _

/-- Whatever lexeme starts with the character `x`, the first token takes all of it. -/
theorem isPrefix_more :
    Lexeme.isLexeme (x :: cs) = true → cs <+: left → cs <+: more x left := by
  intro hlexeme hprefix
  rcases Lexeme.isLexeme_cons_cases hlexeme with ⟨hx, hcs⟩ | ⟨hx, hcs⟩ | rfl | ⟨hx, rfl⟩
  · rw [more_of_isWordStart left hx]
    exact isPrefix_takeWhile hcs hprefix
  · rw [more_of_isDigit left hx]
    exact isPrefix_takeWhile hcs hprefix
  · exact List.nil_prefix
  · rcases hprefix with ⟨rest, rfl⟩
    have hsymbol := Lexeme.classes_of_mem_symbols (Lexeme.mem_symbols_of_mem_joiners hx)
    have hmore : more x (['='] ++ rest) = ['='] := by
      rw [more_of_not_run _ hsymbol.1 hsymbol.2.1, if_pos ⟨hx, rfl⟩]
    exact ⟨[], by rw [hmore, List.append_nil]⟩

theorem longest_firstToken (left : List Char) :
    Lexeme.isBlank x = false → Lexeme.Longest (firstToken x left).text.toList (x :: left) := by
  intro hblank
  have htext : (firstToken x left).text.toList = x :: more x left := String.toList_ofList
  refine ⟨Token.isLexeme_text (isProper_firstToken left hblank), ?_, fun other hother hprefix => ?_⟩
  · rw [htext, List.cons_prefix_cons]
    exact ⟨rfl, more_isPrefix x left⟩
  · rw [htext]
    cases other with
    | nil => exact Nat.zero_le _
    | cons y cs =>
        rcases List.cons_prefix_cons.1 hprefix with ⟨rfl, hcs⟩
        exact Nat.succ_le_succ (isPrefix_more hother hcs).length_le

end Reading

/-! ## Reserved words and joiners -/

namespace Lexeme.Longest

variable {t : Token} {cs : List Char}

/-- A reserved word is read only where it is the whole word. -/
theorem lexeme?_eq_takeWhile (h : Longest t.text.toList cs) :
    t.isProper = true → t.kind.isKeyword = true →
      t.kind.lexeme? = some (String.ofList (cs.takeWhile isWord)) := by
  intro hproper hkeyword
  rcases Token.exists_form hproper with ⟨x, ds, htext, hform⟩
  have hkind : t.kind.isWordKind = true := by simp [Kind.isWordKind, hkeyword]
  have hprefix := h.isPrefix
  have hlength := h.length_le
  rw [htext, String.toList_ofList] at hprefix hlength
  cases hform with
  | number kind _ _ => rw [kind] at hkeyword; cases hkeyword
  | symbol kind _ _ _ => rw [kind.1] at hkind; cases hkind
  | word _ start rest =>
      have hword : (x :: ds).all isWord = true := by simp [isWord, start, rest]
      have hlexeme : isLexeme (cs.takeWhile isWord) = true := by
        rcases hprefix with ⟨left, rfl⟩
        apply isLexeme_of_isWordText
        simp [isWordText, isWord, start, List.all_takeWhile]
      -- The word at this place is a lexeme, so it is no longer than the reserved word that it starts with.
      have hwhole : x :: ds = cs.takeWhile isWord :=
        (isPrefix_takeWhile hword hprefix).eq_of_length_le
          (hlength _ hlexeme (List.takeWhile_prefix _))
      rw [Token.lexeme?_of_isKeyword hproper hkeyword, htext, hwhole]

/-- A joiner stands alone only where no equals sign follows. -/
theorem second_ne_equals (h : Longest t.text.toList cs) :
    t.isProper = true → t.kind.isJoiner = true → cs[1]? ≠ some '=' := by
  intro hproper hkind hequals
  rcases Token.exists_form hproper with ⟨x, ds, htext, hform⟩
  have hprefix := h.isPrefix
  have hlength := h.length_le
  rw [htext, String.toList_ofList] at hprefix hlength
  cases hform with
  | word kind _ _ => rw [(Kind.isWordKind_disjoint kind).2.1] at hkind; cases hkind
  | number kind _ _ => rw [kind] at hkind; cases hkind
  | symbol _ _ _ rest =>
      rcases rest with ⟨rfl, hjoiner⟩ | ⟨_, _, hjoiner⟩
      · have hx : x ∈ joiners := of_decide_eq_true (hjoiner.symm.trans hkind)
        -- With the equals sign, there is a longer lexeme.
        have hlonger : isLexeme [x, '='] = true :=
          isLexeme_of_isSome (isSome_fixedKind?_joined_iff.2 hx)
        rcases hprefix with ⟨left, rfl⟩
        cases left with
        | nil => cases hequals
        | cons y left =>
            obtain rfl : y = '=' := Option.some.inj hequals
            exact absurd (hlength [x, '='] hlonger ⟨left, rfl⟩) (by simp)
      · rw [hjoiner] at hkind
        cases hkind

end Lexeme.Longest

/-! ## Scanners -/

namespace Scanner

variable {s : Scanner} {source : Source}

/-- A step reads the longest lexeme after the blanks, and reads it as a proper token. -/
theorem Within.longest_step (h : s.Within source) :
    s.step.token.isEof = false →
      s.step.token.isProper = true ∧
        ∃ rest, source.slice? s.step.span.start source.size = some rest ∧
          Lexeme.Longest s.step.token.text.toList rest.toList := by
  intro heof
  rcases h.start_cases with ⟨passed, hstart⟩ | ⟨passed, x, left, hstart⟩
  · rw [(step_of_nil hstart).1] at heof
    cases heof
  · have hblank := isBlank_of_start hstart
    have hslice := hstart.slice?_pos_size
    rw [source_start, h.source_eq] at hslice
    rw [(step_of_cons hstart).1]
    refine ⟨isProper_firstToken left hblank, String.ofList (x :: left), hslice, ?_⟩
    rw [String.toList_ofList]
    exact longest_firstToken left hblank

/-- Wherever calls have left a scanner, the token that it reads next is a lexeme that the source goes on with
there, and the source goes on with no longer lexeme. So a reserved word is read only where it is the whole
word, and a joiner alone only where no equals sign follows. -/
theorem token_is_longest_lexeme (source : Source) (calls : List Call) (t : Token) (span : Span) :
    ((afterCalls source calls).perform .located).result.1 = .located t span → t.isEof = false →
      ∃ rest, source.slice? span.start source.size = some rest ∧
        Lexeme.Longest t.text.toList rest.toList ∧
        (t.kind.isKeyword = true →
          t.kind.lexeme? = some (String.ofList (rest.toList.takeWhile Lexeme.isWord))) ∧
        (t.kind.isJoiner = true → rest.toList[1]? ≠ some '=') := by
  intro hanswer heof
  obtain ⟨rfl, rfl⟩ := Answer.located.inj hanswer
  rcases (Stands.afterCalls source calls).within.longest_step heof with ⟨hproper, rest, hslice, hlongest⟩
  exact ⟨rest, hslice, hlongest, hlongest.lexeme?_eq_takeWhile hproper, hlongest.second_ne_equals hproper⟩

/-- A word that starts as a reserved word does. -/
theorem token_is_longest_lexeme_sample :
    ((afterCalls "fn fnx" [.token]).perform .located).result.1 = .located ⟨.ident, "fnx"⟩ ⟨3, 6⟩ ∧
      ∃ rest, Source.slice? "fn fnx" 3 6 = some rest ∧
        Lexeme.Longest "fnx".toList rest.toList := by
  have hanswer : ((afterCalls "fn fnx" [.token]).perform .located).result.1 =
      .located ⟨.ident, "fnx"⟩ ⟨3, 6⟩ := by
    decide +kernel
  rcases token_is_longest_lexeme "fn fnx" [.token] _ _ hanswer rfl with ⟨rest, hslice, hlongest, _⟩
  exact ⟨hanswer, rest, hslice, hlongest⟩

end Scanner

end MonkeyTokens

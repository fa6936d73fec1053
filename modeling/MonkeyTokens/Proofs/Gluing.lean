import MonkeyTokens.Proofs.Reading

/-!
# Gluing — which tokens may stand side by side

A proper token is read back from its text exactly when the character after the text does not belong to
it. `Kind.continues` says which characters those are, by the kind of the token alone. Main statements:

- `Token.isProper_iff`: the ways to be proper, one for each sort of kind;
- `Token.exists_form`: the text of a proper token is a word, a number or a symbol of its kind;
- `firstToken_eq_iff`, `Form.more_eq_iff`: a proper token is read back unless the next character
  continues it;
- `continues_eq_glues`: the first character of a proper token continues another one exactly when the two
  glue.
-/

namespace MonkeyTokens

open Reading

/-! ## What continues a token -/

namespace Kind

def isWordKind (k : Kind) : Bool :=
  k == ident || k.isKeyword

/-- The kinds of the joiners, when they stand alone. -/
def isJoiner (k : Kind) : Bool :=
  k == assign || k == bang || k == lt || k == gt

/-- After the text of a token of the kind, the character would be read as a part of it. -/
def continues (k : Kind) (y : Char) : Bool :=
  (k.isWordKind && Lexeme.isWord y) || (k == int && y.isDigit) || (k.isJoiner && y == '=')

theorem continues_of_isBlank {k : Kind} {y : Char} :
    Lexeme.isBlank y = true → k.continues y = false := by
  intro hy
  simp [continues, Lexeme.classes_of_isBlank hy]

theorem isWordKind_cases {k : Kind} : k.isWordKind = true → k = ident ∨ k.isKeyword = true := by
  intro h
  simpa [isWordKind] using h

/-- No kind of words is a kind of anything else. -/
theorem isWordKind_disjoint {k : Kind} :
    k.isWordKind = true →
      (k == int) = false ∧ k.isJoiner = false ∧ (k == assign) = false ∧ (k == eq) = false := by
  cases k <;> decide

end Kind

/-! ## The forms of proper tokens -/

theorem Lexeme.isIllegalText_iff {cs : List Char} :
    isIllegalText cs = true ↔ ∃ c, cs = [c] ∧ isIllegal c = true := by
  constructor
  · intro h
    unfold isIllegalText at h
    split at h
    case h_1 c => exact ⟨c, rfl, h⟩
    case h_2 => cases h
  · rintro ⟨c, rfl, hc⟩
    exact hc

namespace Token

/-- The ways in which the text of a token can be a written form of its kind. -/
inductive Proper (t : Token) : Prop where
  | ident (kind : t.kind = .ident) (word : Lexeme.isWordText t.text.toList = true)
      (free : Lexeme.fixedKind? t.text = none)
  | int (kind : t.kind = .int) (number : Lexeme.isNumberText t.text.toList = true)
  | illegal (kind : t.kind = .illegal) {c : Char} (text : t.text.toList = [c])
      (illegal : Lexeme.isIllegal c = true)
  | fixed (spelled : t.kind.lexeme? = some t.text)

theorem isProper_iff {t : Token} : t.isProper = true ↔ t.Proper := by
  constructor
  · intro h
    unfold isProper at h
    split at h
    case h_1 hk =>
        rw [Bool.and_eq_true, Option.isNone_iff_eq_none] at h
        exact .ident hk h.1 h.2
    case h_2 hk => exact .int hk h
    case h_3 hk =>
        rcases Lexeme.isIllegalText_iff.1 h with ⟨c, htext, hillegal⟩
        exact .illegal hk htext hillegal
    case h_4 => exact .fixed (beq_iff_eq.1 (Bool.and_eq_true_iff.1 h).2)
  · intro h
    cases h with
    | ident kind word free => simp [isProper, kind, word, free]
    | int kind number => simp [isProper, kind, number]
    | illegal kind text illegal => simp [isProper, kind, text, Lexeme.isIllegalText, illegal]
    | fixed spelled =>
        -- The three kinds that are written in many ways have no fixed spelling.
        unfold isProper
        split
        case h_1 hk => simp [hk, Kind.lexeme?] at spelled
        case h_2 hk => simp [hk, Kind.lexeme?] at spelled
        case h_3 hk => simp [hk, Kind.lexeme?] at spelled
        case h_4 => simp [spelled]

/-- The text `x :: cs` is a word, a number, or a symbol, and the kind `k` is one of these. -/
inductive Form (k : Kind) (x : Char) (cs : List Char) : Prop where
  | word (kind : k.isWordKind = true) (start : Lexeme.isWordStart x = true)
      (rest : cs.all Lexeme.isWord = true)
  | number (kind : k = .int) (start : x.isDigit = true) (rest : cs.all Char.isDigit = true)
  | symbol (kind : k.isWordKind = false ∧ k ≠ .int)
      (start : Lexeme.isWordStart x = false ∧ x.isDigit = false ∧ Lexeme.isBlank x = false)
      (equals : (x == '=') = (k == .assign || k == .eq))
      (rest : cs = [] ∧ k.isJoiner = decide (x ∈ Lexeme.joiners) ∨
        cs = ['='] ∧ x ∈ Lexeme.joiners ∧ k.isJoiner = false)

/-- The kinds of symbols, by what their spellings start with. -/
theorem symbol_of_lexeme? {k : Kind} {x : Char} {cs : List Char} :
    k.lexeme? = some (String.ofList (x :: cs)) → k.isKeyword = false →
      (k.isWordKind = false ∧ k ≠ .int) ∧ ((x == '=') = (k == .assign || k == .eq)) ∧
        k.isJoiner = (decide (x ∈ Lexeme.joiners) && cs.isEmpty) := by
  intro h hkeyword
  have hchars := congrArg (Option.map String.toList) h
  rw [Option.map_some, String.toList_ofList] at hchars
  revert hkeyword
  cases k <;> simp [Kind.lexeme?] at hchars <;> obtain ⟨rfl, rfl⟩ := hchars <;> decide

theorem form_of_lexeme? {k : Kind} {x : Char} {cs : List Char} :
    k.lexeme? = some (String.ofList (x :: cs)) → Form k x cs := by
  intro h
  have hstart : x ∈ Lexeme.symbols → Lexeme.isWordStart x = false ∧ x.isDigit = false ∧
      Lexeme.isBlank x = false := by
    intro hx
    rcases Lexeme.classes_of_mem_symbols hx with ⟨hword, hdigit, hblank, _⟩
    exact ⟨hword, hdigit, hblank⟩
  rcases Kind.spelling h with ⟨hkeyword, hx, _, hcs⟩ | ⟨hkeyword, hx, rfl⟩ | ⟨hkeyword, hx, rfl⟩
  · exact .word (by simp [Kind.isWordKind, hkeyword]) hx hcs
  · rcases symbol_of_lexeme? h hkeyword with ⟨hkind, hequals, hjoiner⟩
    exact .symbol hkind (hstart hx) hequals (.inl ⟨rfl, by simpa using hjoiner⟩)
  · rcases symbol_of_lexeme? h hkeyword with ⟨hkind, hequals, hjoiner⟩
    exact .symbol hkind (hstart (Lexeme.mem_symbols_of_mem_joiners hx)) hequals
      (.inr ⟨rfl, hx, by simpa using hjoiner⟩)

theorem form_of_isIllegal {x : Char} : Lexeme.isIllegal x = true → Form .illegal x [] := by
  intro h
  rcases Lexeme.classes_of_isIllegal h with ⟨hblank, hrun, hmem⟩
  rcases Lexeme.isWord_eq_false_iff.1 hrun with ⟨hword, hdigit⟩
  have hequals : (x == '=') = false := by
    have hne : x ≠ '=' := fun he => hmem (he ▸ by decide)
    simpa using hne
  have hjoiner : x ∉ Lexeme.joiners := fun hx => hmem (Lexeme.mem_symbols_of_mem_joiners hx)
  exact .symbol (by decide) ⟨hword, hdigit, hblank⟩ hequals (.inl ⟨rfl, by simp [hjoiner]; decide⟩)

theorem lexeme?_ne_empty (k : Kind) : k.lexeme? ≠ some "" := by
  cases k <;> decide

theorem text_ne_nil {t : Token} : t.isProper = true → t.text.toList ≠ [] := by
  intro h hnil
  cases isProper_iff.1 h with
  | ident _ word _ => simp [hnil, Lexeme.isWordText] at word
  | int _ number => simp [hnil, Lexeme.isNumberText] at number
  | illegal _ text _ => cases hnil.symm.trans text
  | fixed spelled =>
      rw [String.toList_eq_nil_iff.1 hnil] at spelled
      exact lexeme?_ne_empty t.kind spelled

theorem form_of_text {t : Token} {x : Char} {cs : List Char} :
    t.isProper = true → t.text = String.ofList (x :: cs) → Form t.kind x cs := by
  intro h htext
  have hcs : t.text.toList = x :: cs := by rw [htext, String.toList_ofList]
  cases isProper_iff.1 h with
  | ident kind word _ =>
      rw [hcs] at word
      rcases Bool.and_eq_true_iff.1 word with ⟨hstart, hrest⟩
      exact .word (by rw [kind]; decide) hstart hrest
  | int kind number =>
      have hnumber : x.isDigit = true ∧ cs.all Char.isDigit = true := by
        simpa [hcs, Lexeme.isNumberText] using number
      exact .number kind hnumber.1 hnumber.2
  | illegal kind text illegal =>
      obtain ⟨rfl, rfl⟩ := List.cons.inj (hcs.symm.trans text)
      rw [kind]
      exact form_of_isIllegal illegal
  | fixed spelled =>
      rw [htext] at spelled
      exact form_of_lexeme? spelled

/-- The text of a proper token is not empty, and has the form of its kind. -/
theorem exists_form {t : Token} :
    t.isProper = true → ∃ x cs, t.text = String.ofList (x :: cs) ∧ Form t.kind x cs := by
  intro h
  rcases List.exists_cons_of_ne_nil (text_ne_nil h) with ⟨x, cs, hcs⟩
  have htext : t.text = String.ofList (x :: cs) := by rw [← hcs, String.ofList_toList]
  exact ⟨x, cs, htext, form_of_text h htext⟩

namespace Form

variable {k l : Kind} {x : Char} {cs tail : List Char}

theorem isBlank_eq_false (h : Form k x cs) : Lexeme.isBlank x = false := by
  cases hblank : Lexeme.isBlank x with
  | false => rfl
  | true =>
      rcases Lexeme.classes_of_isBlank hblank with ⟨hword, hdigit, _⟩
      cases h with
      | word _ start _ => simp [Lexeme.isWord, start] at hword
      | number _ start _ => rw [start] at hdigit; cases hdigit
      | symbol _ start _ _ => rw [start.2.2] at hblank; cases hblank

/-- The first character of a text shows the family of its kind. -/
theorem classes (h : Form l x cs) :
    Lexeme.isWord x = (l.isWordKind || l == .int) ∧ x.isDigit = (l == .int) ∧
      (x == '=') = (l == .assign || l == .eq) := by
  cases h with
  | word kind start rest =>
      rcases Kind.isWordKind_disjoint kind with ⟨hint, _, hassign, heq⟩
      -- The first character of a word continues words, but it is no digit.
      have hdigit : x.isDigit = false := by
        cases hd : x.isDigit with
        | false => rfl
        | true => rw [Lexeme.isWordStart_of_isDigit hd] at start; cases start
      have hequals := Lexeme.beq_equals_of_isWord (show Lexeme.isWord x = true by
        simp [Lexeme.isWord, start])
      rw [Lexeme.isWord, start, kind, hint, hdigit, hequals, hassign, heq]
      decide
  | number kind start rest =>
      -- A digit continues words and numbers.
      have hequals := Lexeme.beq_equals_of_isWord (show Lexeme.isWord x = true by
        simp [Lexeme.isWord, start])
      rw [Lexeme.isWord, Lexeme.isWordStart_of_isDigit start, start, hequals, kind]
      decide
  | symbol kind start equals rest =>
      rw [Lexeme.isWord, start.1, start.2.1, kind.1, beq_false_of_ne kind.2, equals]
      exact ⟨rfl, rfl, rfl⟩

/-- The first character of a text continues another token exactly when the two tokens glue. -/
theorem continues_eq_glues (h : Form l x cs) (k : Kind) : k.continues x = k.glues l := by
  rcases h.classes with ⟨hword, hdigit, hequals⟩
  rw [Kind.continues, hword, hdigit, hequals]
  rfl

/-! ## Reading a proper token back -/

theorem run_eq_iff {p : Char → Bool} (hcs : cs.all p = true) :
    (cs ++ tail).takeWhile p = cs ↔ ∀ y ∈ tail.head?, p y = false := by
  rw [List.takeWhile_append_of_pos (by simpa using hcs)]
  cases tail with
  | nil => simp
  | cons y tail => cases hy : p y <;> simp [hy]

/-- A token takes no more than its text exactly when the next character does not continue it. -/
theorem more_eq_iff (h : Form k x cs) :
    more x (cs ++ tail) = cs ↔ ∀ y ∈ tail.head?, k.continues y = false := by
  cases h with
  | word kind start rest =>
      rcases Kind.isWordKind_disjoint kind with ⟨hint, hjoiner, _⟩
      have hclass (y : Char) : k.continues y = Lexeme.isWord y := by
        simp [Kind.continues, kind, hint, hjoiner]
      simp only [more_of_isWordStart _ start, run_eq_iff rest, hclass]
  | number kind start rest =>
      have hclass (y : Char) : k.continues y = y.isDigit := by
        have hint : Kind.isWordKind .int = false ∧ Kind.isJoiner .int = false := by decide
        simp [Kind.continues, kind, hint]
      simp only [more_of_isDigit _ start, run_eq_iff rest, hclass]
  | symbol kind start equals rest =>
      -- A joiner alone takes an equals sign; an operator that has taken one takes no other.
      have hclass (y : Char) : k.continues y = (k.isJoiner && y == '=') := by
        simp [Kind.continues, kind.1, kind.2]
      rcases rest with ⟨rfl, hjoiner⟩ | ⟨rfl, hx, hjoiner⟩
      · simp only [more_of_not_run _ start.1 start.2.1, hclass, hjoiner]
        cases tail with
        | nil => simp
        | cons y tail => by_cases hx : x ∈ Lexeme.joiners <;> simp [hx]
      · simp [more_of_not_run _ start.1 start.2.1, hclass, hjoiner, hx]

end Form

/-- Only identifiers and illegal characters are looked up without success. -/
theorem fixedKind?_text {t : Token} :
    t.isProper = true → t.kind ≠ .int →
      Lexeme.fixedKind? t.text =
        if t.kind = .ident ∨ t.kind = .illegal then none else some t.kind := by
  intro h hint
  cases isProper_iff.1 h with
  | ident kind _ free => rw [free, if_pos (.inl kind)]
  | int kind _ => exact absurd kind hint
  | illegal kind text illegal =>
      rw [if_pos (.inr kind), ← String.ofList_toList (s := t.text), text]
      exact Lexeme.fixedKind?_single_of_not_mem (Lexeme.classes_of_isIllegal illegal).2.2
  | fixed spelled =>
      have hkind : ¬ (t.kind = .ident ∨ t.kind = .illegal) := by
        rintro (hk | hk) <;> simp [hk, Kind.lexeme?] at spelled
      rw [if_neg hkind]
      exact Lexeme.fixedKind?_of_lexeme? spelled

/-- The kind of a proper token is the one that its text shows. -/
theorem kindOf_text {t : Token} {x : Char} {cs : List Char} :
    t.isProper = true → t.text = String.ofList (x :: cs) → kindOf x t.text = t.kind := by
  intro h htext
  cases form_of_text h htext with
  | word kind start _ =>
      rcases Kind.isWordKind_cases kind with hk | hk
      · rw [kindOf, if_pos start, fixedKind?_text h (by rw [hk]; decide), if_pos (.inl hk), hk]
        rfl
      · have hnot : t.kind ≠ .int ∧ ¬ (t.kind = .ident ∨ t.kind = .illegal) := by
          revert hk
          cases t.kind <;> decide
        rw [kindOf, if_pos start, fixedKind?_text h hnot.1, if_neg hnot.2]
        rfl
  | number kind start _ => rw [kindOf_of_isDigit _ start, kind]
  | symbol kind start _ _ =>
      rw [kindOf_of_not_run _ start.1 start.2.1, fixedKind?_text h kind.2]
      split
      case isTrue hk =>
          rcases hk with hk | hk
          · rw [hk] at kind
            exact absurd kind.1 (by decide)
          · rw [hk]
            rfl
      case isFalse => rfl

/-- A proper token is read back exactly when its characters, and no more, are taken. -/
theorem firstToken_eq_iff {t : Token} {x : Char} {cs tail : List Char} :
    t.isProper = true → t.text = String.ofList (x :: cs) →
      (firstToken x (cs ++ tail) = t ↔ more x (cs ++ tail) = cs) := by
  intro h htext
  constructor
  · intro heq
    -- Equal tokens have equal texts, and the text is what was taken.
    have htexts : String.ofList (x :: more x (cs ++ tail)) = String.ofList (x :: cs) := by
      rw [← htext]
      exact congrArg Token.text heq
    have hchars := congrArg String.toList htexts
    rw [String.toList_ofList, String.toList_ofList] at hchars
    exact (List.cons.inj hchars).2
  · intro hmore
    rw [firstToken, hmore, ← htext, kindOf_text h htext]

end Token

end MonkeyTokens
